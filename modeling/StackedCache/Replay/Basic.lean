import StackedCache.Replay.Clock
import StackedCache.Trace.Request
import StackedCache.Trace.Thermal

/-!
# Replaying traces

A `Replay` feeds the requests of a trace to a model.  Before a request, the epochs that have ended by
its time are closed: each one takes the readings that are due, those of skipped epochs included, and
runs the relocation.  Without a thermal trace no epoch is run.
-/

namespace StackedCache

/-- A replay under way. -/
structure Replay where
  model : Model
  clock : EpochClock
  /-- The readings that are left, if there is a thermal trace. -/
  thermal : Option ThermalTrace

namespace Replay

/-- Takes the readings due at an epoch and runs it. -/
def closeEpoch (s : Model × ThermalTrace) (epoch : Nat) : Model × ThermalTrace :=
  let (readings, rest) := s.2.takeThrough epoch
  (((s.1.takeReadings readings).runEpoch).2, rest)

/-- Closes the epochs that have ended at a time. -/
def advance (r : Replay) (timeNs : Nat) : Replay :=
  let (epochs, clock) := r.clock.advance timeNs
  match r.thermal with
  | none => { r with clock := clock }
  | some thermal =>
      let (model, thermal) := epochs.foldl closeEpoch (r.model, thermal)
      { model := model, clock := clock, thermal := some thermal }

def request (r : Replay) (q : TraceRequest) : Replay :=
  let r := r.advance q.timeNs
  { r with model := (r.model.request (.ofNs q.timeNs) q.size q.addr q.access).2 }

/-- Serves the request on a line, if there is one. -/
def line (r : Replay) (number : Nat) (text : List Char) : Except TraceFault Replay :=
  (TraceRequest.ofLine number text).map fun
    | none => r
    | some q => r.request q

end Replay

end StackedCache
