import TypeWire.Command.Run

/-!
# The command line

Reads the files that a command asks for, runs it and writes what it leaves. No module holds types
here: a program with types of its own calls `commandLine` with a registry of them.
-/

namespace TypeWire

/-- The error of a file operation on a path. -/
def FileError.ofIO (path : String) : IO.Error → FileError
  | .noFileOrDirectory .. => .missing path
  | e => .other e.toString

/-- Reads the files of a list as far as they can be read. -/
def readFiles (paths : List String) : IO Reader := do
  let texts ← paths.mapM fun (path : String) => do
    try return (path, Except.ok (← IO.FS.readFile path))
    catch e => return (path, Except.error (FileError.ofIO path e))
  return fun path => (texts.lookup path).getD (.error (.missing path))

/-- Writes the file that a report holds, if it holds one. -/
def writeFile : Option (String × String) → IO (Except FileError Unit)
  | none => return .ok ()
  | some (path, text) => do
    try
      IO.FS.writeFile path text
      return .ok ()
    catch e => return .error (FileError.ofIO path e)

/-- Prints how a command ended and returns its status. -/
def conclude (exit : Exit) (output : String) : IO UInt32 := do
  IO.print output
  match exit with
  | .status code | .usage code => return code.toUInt32
  | .broken e =>
    IO.eprintln e.message
    return 1

/-- Runs a command line on the files of the system. -/
def commandLine (r : Registry) (arguments : List String) : IO UInt32 := do
  match Command.ofArguments arguments with
  | .error e => conclude e.exit ""
  | .ok c =>
    match c.execute r (← readFiles c.inputs) with
    | .error e => conclude e.exit.1 e.exit.2
    | .ok report =>
      match ← writeFile report.written with
      | .error e => conclude (CommandError.file e).exit.1 (CommandError.file e).exit.2
      | .ok () => conclude (.status 0) report.output

end TypeWire

/-- Runs the command line without types of its own. -/
def main (arguments : List String) : IO UInt32 := TypeWire.commandLine {} arguments
