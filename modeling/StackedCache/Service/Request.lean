import StackedCache.Service.Consequences
import StackedCache.Service.Designs

/-!
# Serving requests

The way of a request through the controller: it is put in order, waits for the consequences of
relocation and for the lookup of its bank, and is then served by the design, unless its bank is out
of use and it goes past the cache.
-/

namespace StackedCache

open Service

namespace Service

/-- Draws the consequences of relocation at the request's expense. -/
def settle : Serving Unit := do
  let (time, c) := (← theController).drawConsequences
  modifyController fun _ => c
  charge time

def renumber (addr : Nat) : Serving Nat := do
  match (← theController).pageTable with
  | some table =>
      let (addr, table) := table.renumber addr
      modifyController fun c => { c with pageTable := some table }
      return addr
  | none => return addr

/-- Sends a request past the cache if its bank is out of use, and says so. -/
def bypass (row : Location) (size : Nat) : Serving Bool := do
  if (← theController).layer.disabled row.place then
    count fun n => { n with bypasses := n.bypasses + 1, misses := n.misses + 1 }
    load size
    return true
  else
    return false

def serveByDesign (arrival : Time) (size addr : Nat) (access : Access) : Serving Unit := do
  let c ← theController
  match c.organisation with
  | .segments _ =>
      if ← bypass (c.stack.locate addr) size then return
      serveSegment arrival size addr access
  | .blocks =>
      let split := c.splitter.split addr
      if ← bypass (← setAt split.set).placement size then return
      serveBlock arrival size split access
  | .pages _ =>
      let split := c.splitter.split addr
      if ← bypass (← setAt split.set).placement size then
        count fun n => { n with blockMisses := n.blockMisses + 1 }
        return
      servePage arrival split access

def serve (arrival : Time) (size addr : Nat) (access : Access) : Serving Unit := do
  settle
  charge (← theController).layer.settings.lookupLatency
  let addr ← renumber addr
  serveByDesign arrival size addr access
  let memory := (← theController).memory
  charge memory.queueLatency
  charge memory.busDelay

end Service

namespace Controller

/-- The time at which a request counts as arrived: a late one arrives with the latest before it. -/
def order (c : Controller) (time : Time) : Time × Controller :=
  if time < c.lastTime then
    (c.lastTime, c.modifyCounts fun n => { n with outOfOrder := n.outOfOrder + 1 })
  else
    (time, { c with lastTime := time })

def countRequest (c : Controller) (access : Access) : Controller :=
  c.modifyCounts fun n =>
    match access with
    | .read => { n with accesses := n.accesses + 1, reads := n.reads + 1 }
    | .write => { n with accesses := n.accesses + 1, writes := n.writes + 1 }

/-- The outcome of a request: the fault that ended it, if any, and the time until then. -/
structure Outcome where
  fault : Option Fault
  latency : Time

def request (c : Controller) (time : Time) (size addr : Nat) (access : Access) :
    Outcome × Controller :=
  let (arrival, c) := c.order time
  match Service.serve arrival size addr access { controller := c.countRequest access } with
  | .ok _ s => (⟨none, s.elapsed⟩, s.controller)
  | .error fault s => (⟨some fault, s.elapsed⟩, s.controller)

end Controller

end StackedCache
