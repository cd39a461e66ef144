/-!
# Epochs of a replay

Epoch `k` of a replay ends `k` epoch lengths after its start.  An `EpochClock` closes epochs as time
goes on.  Of a long gap only the latest epochs are run.
-/

namespace StackedCache

/-- The most epochs that one step of the clock runs. -/
def catchUpEpochs : Nat := 64

/-- How far epochs are closed. -/
structure EpochClock where
  /-- The length of an epoch in nanoseconds. -/
  epochNs : Nat
  /-- The last epoch that is closed. -/
  closed : Nat := 0
  deriving DecidableEq, Repr

namespace EpochClock

def ended (c : EpochClock) (timeNs : Nat) : Nat := timeNs / c.epochNs

/-- The first epoch to run when all epochs through `last` are closed. -/
def firstToRun (c : EpochClock) (last : Nat) : Nat :=
  max (last - (catchUpEpochs - 1)) (c.closed + 1)

/-- Closes every epoch that has ended and returns those to run, in order. -/
def advance (c : EpochClock) (timeNs : Nat) : List Nat × EpochClock :=
  let last := c.ended timeNs
  if last ≤ c.closed then ([], c)
  else
    let first := c.firstToRun last
    (List.range' first (last + 1 - first), { c with closed := last })

end EpochClock

end StackedCache
