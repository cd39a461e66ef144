import StackedCache.Fault
import StackedCache.Trace.Field

/-!
# Failures of the program

Why a run of the program ends without a report.
-/

namespace StackedCache

/-- Why a file cannot be read: in the words of the operating system. -/
inductive ReadFault where
  | unopened (cause : String)
  /-- The file was opened, but reading it failed. -/
  | stopped (cause : String)
  deriving DecidableEq, Repr

/-- What keeps the program from its report. -/
inductive Failure where
  | unreadable (path cause : String)
  | unopened (path cause : String)
  /-- Reading a file of lines failed on the way. -/
  | stopped (path cause : String)
  | unwritten (path cause : String)
  | settings (path : String) (cause : SettingsFault)
  /-- The model refuses the settings. -/
  | model (cause : SettingsFault)
  | trace (path : String) (cause : TraceFault)
  /-- No request trace is named. -/
  | traceMissing
  deriving DecidableEq, Repr

/-- What is said of bytes that are no text. -/
def notTextCause : String := "stream did not contain valid UTF-8"

namespace ReadFault

def cause : ReadFault → String
  | unopened cause => cause
  | stopped cause => cause

/-- The failure of a program that needs a whole file. -/
def whole (path : String) (f : ReadFault) : Failure := .unreadable path f.cause

def byLine (path : String) : ReadFault → Failure
  | unopened cause => .unopened path cause
  | stopped cause => .stopped path cause

end ReadFault

namespace Failure

def message : Failure → String
  | unreadable path cause => "cannot read " ++ path ++ ": " ++ cause
  | unopened path cause => "cannot open " ++ path ++ ": " ++ cause
  | stopped path cause => path ++ ": " ++ cause
  | unwritten path cause => "cannot write " ++ path ++ ": " ++ cause
  | settings path cause => path ++ ": " ++ cause.message
  | model cause => cause.message
  | trace path cause => path ++ ": " ++ cause.message
  | traceMissing => "--trace is required"

end Failure

end StackedCache
