import StackedCache.Program.Run

/-!
# The command line

Reads files and writes the report; what they mean is decided elsewhere.
-/

namespace StackedCache.Main

/-- A failure of the operating system in its own words. -/
def causeText (description : String) (code : UInt32) : String :=
  description ++ " (os error " ++ toString code.toNat ++ ")"

/-- The cause of a failure of a file operation. -/
def fileCause : IO.Error → String
  | .noFileOrDirectory _ code description => causeText description code
  | .permissionDenied _ code description => causeText description code
  | .inappropriateType _ code description => causeText description code
  | .invalidArgument _ code description => causeText description code
  | .resourceExhausted _ code description => causeText description code
  | cause => toString cause

def readFile (path : String) : IO (Except ReadFault (List UInt8)) := do
  match ← (IO.FS.Handle.mk path .read).toBaseIO with
  | .error cause => return .error (.unopened (fileCause cause))
  | .ok handle =>
      match ← handle.readBinToEnd.toBaseIO with
      | .error cause => return .error (.stopped (fileCause cause))
      | .ok bytes => return .ok bytes.toList

/-- Writes a report and returns the exit code. -/
def write (output : Option String) (report : String) : IO UInt32 := do
  match output with
  | none =>
      IO.print report
      return 0
  | some path =>
      match ← (IO.FS.writeFile path report).toBaseIO with
      | .ok _ => return 0
      | .error cause =>
          IO.eprintln ("error: " ++ (Failure.unwritten path (fileCause cause)).message)
          return 1

end StackedCache.Main

open StackedCache in
/-- Runs the program and returns its exit code. -/
def main (arguments : List String) : IO UInt32 := do
  match Options.ofArguments arguments with
  | .error _ =>
      IO.eprintln "error: invalid command line"
      return 2
  | .ok options =>
      match ← (Program.run Main.readFile options).run with
      | .error failure =>
          IO.eprintln ("error: " ++ failure.message)
          return 1
      | .ok report => Main.write options.output report.print
