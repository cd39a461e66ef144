import StackedCache.Timing.Command
import StackedCache.Timing.Speed

/-!
# Legal transitions

Which command may follow which in a bank, and what that costs.  A pair without a number of cycles is
illegal.
-/

namespace StackedCache.Speed

/-- Cycles from a column write to the precharge after it.  Numbers of cycles are words of 32 bits,
and this sum and those of `transitionCycles?` are meant where they fit, as `SumsFit` says. -/
def writeRecovery (s : Speed) : Nat := s.cwl.toNat + s.bl.toNat + s.wr.toNat

/-- The cycles a command takes after another one. -/
def transitionCycles? (s : Speed) : Command → Command → Option Nat
  | .act, .rd | .act, .rda => some s.rcdr.toNat
  | .act, .wr | .act, .wra => some s.rcdw.toNat
  | .act, .act => some s.rc.toNat
  | .act, .pre => some s.ras.toNat
  | .rd, .pre => some s.rtp.toNat
  | .wr, .pre => some s.writeRecovery
  | .rda, .act => some (s.rtp.toNat + s.rp.toNat)
  | .wra, .act => some (s.writeRecovery + s.rp.toNat)
  | .pre, .act | .pre, .refsb => some s.rp.toNat
  | .refsb, .refsb | .refsb, .act => some s.rfc.toNat
  | _, _ => none

def latency? (s : Speed) (before next : Command) : Option Time :=
  (s.transitionCycles? before next).map s.cycles

/-- All legal transitions with their latencies, ordered by the commands. -/
def transitions (s : Speed) : List (Command × Command × Time) :=
  Command.all.flatMap fun before =>
    Command.all.filterMap fun next =>
      (s.latency? before next).map fun time => (before, next, time)

end StackedCache.Speed
