import TinyScript.CommandLine

/-! The program: gives the arguments, standard input and the files of the current
directory to the command line, and carries out what comes of it. -/

namespace TinyScript.Program

open Library (Files)

/-- More steps than a run can take in practice. -/
def fuel : Nat := Number.twoTo 62

partial def readAll (stream : IO.FS.Stream) (soFar : ByteArray) : IO ByteArray := do
  let chunk ← stream.read 65536
  if chunk.isEmpty then return soFar else readAll stream (soFar ++ chunk)

/-- The files of the current directory. -/
def loadFiles : IO Files := do
  let mut entries := []
  for entry in ← (← IO.currentDir).readDir do
    unless ← entry.path.isDir do
      entries := (entry.fileName, (← IO.FS.readBinFile entry.path).toList) :: entries
  return ⟨entries⟩

/-- Writes the files that have changed. -/
def saveFiles (before after : Files) : IO Unit := do
  for (name, contents) in after.entries do
    unless before.get? name = some contents do
      IO.FS.writeBinFile name ⟨contents.toArray⟩

/-- The exit code; a killed program has that of its signal. -/
def exitCode : CommandLine.Status → UInt32
  | .exit code => code.toUInt32
  | .killed => 136

end TinyScript.Program

open TinyScript Program in
def main (args : List String) : IO UInt32 := do
  let request := CommandLine.Request.read? args
  let stdin ← if (request.map (·.readsInput)).getD false then
      readAll (← IO.getStdin) .empty
    else
      pure .empty
  let files ← loadFiles
  match CommandLine.run args stdin.toList files fuel with
  | none => return 1
  | some result =>
    saveFiles files result.files
    (← IO.getStdout).write ⟨result.stdout.toArray⟩
    (← IO.getStdout).flush
    (← IO.getStderr).putStr result.stderr
    return exitCode result.status
