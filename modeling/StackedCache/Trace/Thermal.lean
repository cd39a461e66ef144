import StackedCache.Decimal.Reading
import StackedCache.Model.Basic
import StackedCache.Text.Lines
import StackedCache.Trace.Field

/-!
# Thermal traces

A line of a thermal trace has an epoch, a vault, a bank and a temperature.  The lines may come in any
order; readings are taken out by epoch, and within an epoch in the order of their lines.
-/

namespace StackedCache

/-- A temperature a reading may have: a decimal that is finite. -/
def Celsius.ofWord? (word : List Char) : Option Celsius :=
  ((Decimal.read? word).map Celsius.mk).filter Celsius.isFinite

namespace Reading

/-- The epoch and reading that the words of a line stand for. -/
def ofWords (line : Nat) (words : List (List Char)) : Except TraceFault (Nat × Reading) := do
  let (epoch, words) ← Trace.readField line .epoch Text.wordNumeral? words
  let (vault, words) ← Trace.readField line .vault Trace.index? words
  let (bank, words) ← Trace.readField line .bank Trace.index? words
  let (temperature, _) ← Trace.readField line .temperature Celsius.ofWord? words
  return (epoch, ⟨⟨vault, bank⟩, temperature⟩)

/-- The epoch and reading on a line, unless the line is blank or a comment. -/
def ofLine (line : Nat) (text : List Char) : Except TraceFault (Option (Nat × Reading)) :=
  Trace.readLine line ofWords text

end Reading

/-- The readings that are left of a thermal trace, by epoch. -/
structure ThermalTrace where
  epochs : Table (List Reading) := []
  deriving Inhabited

namespace ThermalTrace

/-- Puts a reading behind those of its epoch. -/
def add (t : ThermalTrace) (epoch : Nat) (r : Reading) : ThermalTrace :=
  { t with epochs := t.epochs.insert epoch ((t.epochs.find? epoch).getD [] ++ [r]) }

/-- Reads a numbered line and adds its reading. -/
def addLine (t : ThermalTrace) (numbered : List Char × Nat) : Except TraceFault ThermalTrace :=
  (Reading.ofLine numbered.2 numbered.1).map fun
    | none => t
    | some (epoch, r) => t.add epoch r

/-- The trace a text stands for; the first line that is refused refuses the text. -/
def ofText (text : List Char) : Except TraceFault ThermalTrace :=
  ((Text.lines text).zipIdx 1).foldlM addLine {}

/-- The number no epoch reaches: readings for it are never due. -/
def endOfEpochs : Nat := 2 ^ 64 - 1

def due (epoch : Nat) (entry : Nat × List Reading) : Bool :=
  entry.1 ≤ epoch && entry.1 < endOfEpochs

/-- Takes out the readings that are due, oldest epoch first. -/
def takeThrough (t : ThermalTrace) (epoch : Nat) : List Reading × ThermalTrace :=
  ((t.epochs.filter (due epoch)).flatMap Prod.snd,
    { epochs := t.epochs.filter fun entry => !due epoch entry })

end ThermalTrace

end StackedCache
