import StackedCache.Access
import StackedCache.Fault
import StackedCache.Settings.Basic
import StackedCache.Stack.Activity
import StackedCache.Timing.Transition

/-!
# Banks

A bank has at most one open row.  A command is checked first, `Bank.permit`, and only a permitted
command changes the bank, `Bank.accept`; so a refused command leaves it as it was.

A column command works on the open row and takes the time from the activation to the column, however
long ago the activation was.  It counts as a row hit unless it is the first one after it.

A bank with a refresh interval keeps the time of its next refresh.  For a hot bank the interval is
halved.
-/

namespace StackedCache

/-- A DRAM bank. -/
structure Bank where
  /-- Capacity in bytes. -/
  size : Nat
  rowSize : Nat
  speed : Speed
  openRow : Option Nat := none
  /-- The last accepted command. -/
  last : Command := .pre
  /-- The latest time of an accepted command. -/
  clock : Time := .zero
  /-- The latencies of all accepted commands. -/
  busy : Time := .zero
  /-- The interval for a bank that is not hot, zero without refresh. -/
  refreshInterval : Time := .zero
  nextRefresh : Time := .zero
  hot : Bool := false
  activity : Activity := {}
  deriving Inhabited

/-- What a row is to its bank. -/
inductive RowState where
  | opened
  | closed
  deriving DecidableEq, Repr

/-- A step of a bank.  When it fails, what it did before stays done. -/
abbrev BankStep := EStateM TimingFault Bank

namespace Bank

def ofSize (size rowSize : Nat) (speed : Speed) : Bank := { size, rowSize, speed }

def rows (b : Bank) : Nat := b.size / b.rowSize

/-- Rows that can be addressed. -/
def rowCount (b : Bank) : Nat := narrow b.rows

def rowState? (b : Bank) (row : Nat) : Option RowState :=
  if b.rows ≤ row then none else if b.openRow = some row then some .opened else some .closed

/-! ## Commands -/

/-- The latency of a permitted command, or why it is refused. -/
def permit (b : Bank) (command : Command) (row : Nat) : Except TimingFault Time :=
  if b.rowCount ≤ row then
    .error (.rowOutOfRange row b.rowCount)
  else if command.isColumn && b.openRow ≠ some row then
    .error (.rowNotOpen command row b.openRow)
  else
    match b.speed.latency? (if command.isColumn then .act else b.last) command with
    | some latency => .ok latency
    | none => .error (.illegalTransition b.last command)

def openAfter (b : Bank) (command : Command) (row : Nat) : Option Nat :=
  if command = .act then some row
  else if command.closesRow || command.autoPrecharges then none
  else b.openRow

def accept (b : Bank) (command : Command) (row : Nat) (time latency : Time) : Bank :=
  { b with
    openRow := b.openAfter command row
    last := command
    clock := b.clock.later time
    busy := b.busy + latency
    activity := b.activity.record command latency (command.isColumn && b.last ≠ .act) }

/-- Issues a command and returns its latency. -/
def issue (command : Command) (row : Nat) (time : Time) : BankStep Time := do
  let b ← get
  match b.permit command row with
  | .ok latency =>
      set (b.accept command row time latency)
      return latency
  | .error cause => throw cause

/-- A command either is permitted and accepted, or is refused and changes nothing. -/
theorem issue_apply (command : Command) (row : Nat) (time : Time) (b : Bank) :
    issue command row time b =
      match b.permit command row with
      | .ok latency => .ok latency (b.accept command row time latency)
      | .error cause => .error cause b := by
  have read : issue command row time b =
      (match b.permit command row with
        | .ok latency => do
            set (b.accept command row time latency)
            return latency
        | .error cause => throw cause : BankStep Time) b := rfl
  rw [read]
  cases b.permit command row <;> rfl

/-! ## Refresh -/

/-- The refresh interval in force. -/
def interval (b : Bank) : Time := if b.hot then b.refreshInterval.half else b.refreshInterval

/-- The next refresh is one interval after `time`. -/
def schedule (b : Bank) (time : Time) : Bank := { b with nextRefresh := time + b.interval }

/-- Installs the refresh interval of a bank that is not hot; zero turns refresh off. -/
def setRefreshInterval (b : Bank) (interval : Time) : Bank :=
  { b with refreshInterval := interval }.schedule b.clock

/-- Marks the bank as hot or not.  A change starts the interval anew. -/
def setHot (b : Bank) (hot : Bool) : Bank :=
  if b.hot = hot then b else { b with hot := hot }.schedule b.clock

def refreshDue (b : Bank) (time : Time) : Bool :=
  b.refreshInterval ≠ .zero && b.nextRefresh ≤ time

/-- Closes the open row, if there is one. -/
def closeRow (time : Time) : BankStep Time := do
  match (← get).openRow with
  | some row => issue .pre row time
  | none => return .zero

/-- Closes the open row and refreshes the bank. -/
def refresh (time : Time) : BankStep Time := do
  let closing ← closeRow time
  let refreshing ← issue .refsb 0 (time + closing)
  let latency := closing + refreshing
  modify (·.schedule (time + latency))
  return latency

/-! ## Requests -/

/-- Makes `row` the open row. -/
def bring (row : Nat) (time : Time) : BankStep Time := do
  match (← get).openRow with
  | some current =>
      if current = row then
        return .zero
      else
        let closing ← issue .pre current time
        let opening ← issue .act row (time + closing)
        return closing + opening
  | none => issue .act row time

def columnCommand : Access → Command
  | .read => .rd
  | .write => .wr

/-- Serves a request for a row, after the refresh if one is due.  With `autoPrecharge` the row is
closed again. -/
def serve (autoPrecharge : Bool) (access : Access) (row : Nat) (time : Time) : BankStep Time := do
  let refreshing ← if (← get).refreshDue time then refresh time else pure .zero
  let opening ← bring row (time + refreshing)
  let ready := refreshing + opening
  let column ← issue (columnCommand access) row (time + ready)
  let served := ready + column
  if autoPrecharge then
    let closing ← issue .pre row (time + served)
    return served + closing
  else
    return served

/-- Forgets what the bank has done; rows stay open. -/
def resetActivity (b : Bank) : Bank := { b with activity := {} }

end Bank

end StackedCache
