import StackedCache.Json.Printer
import StackedCache.Program.Failure
import StackedCache.Program.Options
import StackedCache.Replay.Basic
import StackedCache.Settings.Document
import StackedCache.Statistics.Document
import StackedCache.Statistics.Text

/-!
# A run of the program

The program reads its settings, replays a trace and reports the statistics; or it only shows the
settings.  Files are read by a function in any monad, in the order in which they are needed, so that
the first failure is the one reported.
-/

namespace StackedCache

/-- What a run reports. -/
inductive Output where
  | document (json : Json)
  | text (s : String)

/-- The output as it is written, with a line break at its end. -/
def Output.print : Output → String
  | .document json => json.pretty ++ "\n"
  | .text s => s ++ "\n"

namespace Program

variable {μ : Type → Type} [Monad μ]

/-- A part of a run that reads files. -/
abbrev Running (μ : Type → Type) := ExceptT Failure μ

abbrev ReadFile (μ : Type → Type) := String → μ (Except ReadFault (List UInt8))

/-- The characters of bytes in UTF-8. -/
def textOf? (bytes : List UInt8) : Option String := String.fromUTF8? ⟨bytes.toArray⟩

def readBytes (read : ReadFile μ) (path : String) (fail : String → ReadFault → Failure) :
    Running μ (List UInt8) := do
  match ← (read path : μ _) with
  | .ok bytes => return bytes
  | .error cause => throw (fail path cause)

def readText (read : ReadFile μ) (path : String) : Running μ String := do
  match textOf? (← readBytes read path ReadFault.whole) with
  | some text => return text
  | none => throw (.unreadable path notTextCause)

def loadSettings (read : ReadFile μ) : Option String → Running μ Settings
  | none => return {}
  | some path => do
      match Settings.ofText (← readText read path) with
      | .ok s => return s
      | .error cause => throw (.settings path cause)

/-- The thermal trace in a file, if one is given. -/
def loadThermal (read : ReadFile μ) : Option String → Running μ (Option ThermalTrace)
  | none => return none
  | some path => do
      match ThermalTrace.ofText (← readText read path).toList with
      | .ok trace => return some trace
      | .error cause => throw (.trace path cause)

/-- Serves the request on a numbered line of a file. -/
def replayLine (path : String) (r : Replay) (numbered : List UInt8 × Nat) :
    Except Failure Replay :=
  match textOf? numbered.1 with
  | none => .error (.stopped path notTextCause)
  | some text => (r.line numbered.2 text.toList).mapError (.trace path)

/-- Serves the requests of a file, line by line. -/
def replayFile (path : String) (bytes : List UInt8) (r : Replay) : Except Failure Replay :=
  ((Text.byteLines bytes).zipIdx 1).foldlM (replayLine path) r

/-- The statistics in the chosen format. -/
def outputOf (format : ReportFormat) (s : Summary) : Output :=
  match format with
  | .json => .document s.document
  | .text => .text s.text

/-- Replays the request trace and reports the statistics. -/
def replay (read : ReadFile μ) (o : Options) (settings : Settings) : Running μ Output := do
  let thermal ← loadThermal read o.thermal
  let model ← (Model.ofSettings settings).mapError Failure.model
  match o.trace with
  | none => throw .traceMissing
  | some path =>
      let bytes ← readBytes read path ReadFault.byLine
      let start : Replay := { model := model, clock := { epochNs := o.epochNs }, thermal := thermal }
      let r ← replayFile path bytes start
      return outputOf o.format r.model.summary

def run (read : ReadFile μ) (o : Options) : Running μ Output := do
  let settings ← loadSettings read o.config
  if o.printConfig then return .document (Settings.codec.write settings)
  else replay read o settings

end Program

end StackedCache
