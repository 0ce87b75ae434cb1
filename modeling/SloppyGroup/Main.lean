import SloppyGroup.Command.Program

/-!
The program on the file system and the terminal: files are real, printed text goes to standard
output and the journal to standard error.
-/

namespace SloppyGroup

/-- Computations on the real host, which know whether details are to be shown. -/
abbrev Terminal := ReaderT Bool IO

namespace Terminal

/-- Why an operation failed. The number tells a directory in a file's place from a file in a
directory's place. -/
def fault : IO.Error → FileFault
  | .noFileOrDirectory .. => .notFound
  | .alreadyExists .. => .alreadyExists
  | .inappropriateType _ number _ => if number = 21 then .isDirectory else .notDirectory
  | error => .other (toString error)

/-- Performs a file operation and gives the reason if it fails. -/
def attempt {α : Type} (operation : IO α) : Terminal (Except FileFault α) := do
  return (← (operation.toBaseIO : IO (Except IO.Error α))).mapError fault

instance : Host Terminal where
  read path := attempt (IO.FS.readFile path)
  makeDirectories path := if path.isEmpty then return .ok () else attempt (IO.FS.createDirAll path)
  write path text := attempt (IO.FS.writeFile path text)
  print text := (IO.print text : IO Unit)
  report event := do
    if Program.isShown (← read) event then
      (IO.eprintln event.line : IO Unit)

end Terminal

end SloppyGroup

open SloppyGroup in
def main (words : List String) : IO UInt32 := do
  let invocation := Invocation.ofWords words
  let status ← (Program.perform invocation : Terminal Program.Status).run invocation.isVerbose
  match status with
  | .success => pure ()
  | .failure message => IO.eprintln ("Error: " ++ message)
  | .misuse => IO.eprintln "error: invalid command line"
  return status.code.toUInt32
