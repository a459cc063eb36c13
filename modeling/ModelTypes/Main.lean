import ModelTypes.CommandLine.Program

/-!
# The command

The program on the machine that it runs on.
-/

namespace ModelTypes

def FileError.ofIO : IO.Error → FileError
  | .noFileOrDirectory .. => .notFound
  | .alreadyExists .. => .alreadyExists
  | .inappropriateType .. => .isADirectory
  | .invalidArgument .. => .badPath
  | _ => .other

def tryFile (action : IO α) : IO (Except FileError α) := do
  match ← action.toBaseIO with
  | .ok a => return .ok a
  | .error e => return .error (.ofIO e)

instance : Host IO where
  read path := do
    match ← tryFile (IO.FS.readBinFile path) with
    | .error e => return .error e
    | .ok bytes =>
      match Contents.ofBytes bytes.toList with
      | .text s => return .ok s
      | .binary _ => return .error .notText
  isFile path := do
    match ← tryFile (IO.FS.readBinFile path) with
    | .ok _ => return true
    | .error _ => return false
  createDirectories path := tryFile (if path = "" then pure () else IO.FS.createDirAll path)
  write path text := tryFile (IO.FS.writeFile path text)
  workingDirectory := return (← IO.currentDir).toString
  report line := IO.eprintln (" INFO " ++ line)

end ModelTypes

open ModelTypes in
def main (arguments : List String) : IO UInt32 := do
  let environment ← IO.getEnv Program.schemaVariable
  let exit : Program.Exit ← Program.execute environment arguments
  IO.print exit.output
  if let some line := exit.error then IO.eprintln line
  return exit.code.toUInt32
