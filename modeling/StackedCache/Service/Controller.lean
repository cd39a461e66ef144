import StackedCache.Relocation.Run
import StackedCache.Residency.CacheSet
import StackedCache.Residency.Footprint
import StackedCache.Service.Counts
import StackedCache.Service.PageTable
import StackedCache.Service.Segment
import StackedCache.Stack.Basic

/-!
# The cache controller

The `Controller` holds everything a request can touch: the sets or segments of the cache, the stack,
the relocation layer and the counters.

A request is a `Serving` computation.  Its state is the controller and the time that has elapsed for
the request so far, and both survive a failure.
-/

namespace StackedCache

/-- The part of a cache that depends on its design. -/
inductive Organisation where
  /-- Direct-mapped sets. -/
  | blocks
  /-- Sets of pages, with their footprint history. -/
  | pages (history : FootprintHistory)
  /-- Segments instead of sets. -/
  | segments (segments : Array Segment)

def Organisation.design : Organisation → Design
  | blocks => .alloy
  | pages _ => .unison
  | segments _ => .constant

/-- A cache in a DRAM stack. -/
structure Controller where
  organisation : Organisation
  sets : Array CacheSet
  splitter : Splitter
  blockSize : Nat
  segmentSize : Nat
  /-- Slots that share a segment. -/
  slots : Nat
  memory : MemorySettings
  stack : Stack
  layer : Layer
  /-- Present if pages are renumbered. -/
  pageTable : Option PageTable
  /-- The latest request so far. -/
  lastTime : Time := .zero
  counts : CacheCounts := {}

/-- A request being served. -/
structure Service where
  controller : Controller
  /-- The latency so far. -/
  elapsed : Time := .zero

/-- A part of serving a request.  When it fails, what it did before stays done. -/
abbrev Serving := EStateM Fault Service

namespace Controller

/-! ## Construction -/

/-- The sets of a cache, given the unit of the stack that holds each set. -/
def buildSets (s : CacheSettings) (g : Geometry) (kind : SetKind) (unit : Nat → Nat) :
    Array CacheSet :=
  (Array.range s.sets.toNat).map fun set =>
    .ofKind kind s.associativity.toNat s.ageing (g.locateRow (unit set))

/-- The organisation, line size and sets of a design. -/
def organise (s : Settings) (g : Geometry) : Organisation × Nat × Array CacheSet :=
  let cache := s.cache
  match cache.design with
  | .alloy =>
      (.blocks, cache.blockSize.toNat,
        buildSets cache g .directBlock fun set => set / cache.tagsPerRow.toNat)
  | .unison =>
      (.pages (.ofSize cache.footprintEntries.toNat cache.blocksPerPage), cache.pageSize.toNat,
        buildSets cache g .page id)
  | .constant =>
      let segment := Segment.ofSize s.segment.slots.toNat s.segment.swapCount.toNat
      (.segments (Array.replicate s.segment.entries segment), cache.blockSize.toNat, #[])

/-- An empty cache. -/
def ofSettings (s : Settings) : Controller :=
  let stack := Stack.ofSettings s.stack
  let (organisation, line, sets) := organise s stack.geometry
  { organisation := organisation
    sets := sets
    splitter := .ofSizes line s.cache.sets.toNat
    blockSize := s.cache.blockSize.toNat
    segmentSize := s.segment.segmentSize.toNat
    slots := s.segment.slots.toNat
    memory := s.memory
    stack := stack
    layer := .ofSettings s.relocation stack.geometry
    pageTable := if s.cache.renumberPages then some {} else none }

/-! ## Parts -/

def set? (c : Controller) (index : Nat) : Option CacheSet := c.sets[index]?

def modifyCounts (c : Controller) (f : CacheCounts → CacheCounts) : Controller :=
  { c with counts := f c.counts }

/-- Marks a physical bank as hot or not. -/
def setHot (c : Controller) (p : BankPlace) (hot : Bool) : Except TimingFault Controller :=
  match Stack.setHot p hot c.stack with
  | .ok _ stack => .ok { c with stack := stack }
  | .error cause _ => .error cause

/-- Changes the relocation layer. -/
def modifyLayer (c : Controller) (f : Layer → Layer) : Controller := { c with layer := f c.layer }

/-- The counters, with those of the sets summed up. -/
def statistics (c : Controller) : CacheCounts :=
  { c.counts with
    setReads := c.sets.foldl (fun n s => n + s.reads) 0
    setWrites := c.sets.foldl (fun n s => n + s.writes) 0 }

/-- Forgets all counts; content and places stay. -/
def resetCounts (c : Controller) : Controller :=
  { c with
    counts := {}
    sets := c.sets.map CacheSet.resetCounts
    organisation :=
      match c.organisation with
      | .pages history => .pages history.resetCounts
      | other => other
    stack := c.stack.resetActivity
    layer := c.layer.resetCounts }

end Controller

/-! ## Steps of a request -/

namespace Service

def theController : Serving Controller := return (← get).controller

def modifyController (f : Controller → Controller) : Serving Unit :=
  modify fun s => { s with controller := f s.controller }

def count (f : CacheCounts → CacheCounts) : Serving Unit := modifyController (·.modifyCounts f)

/-- The request takes this much longer. -/
def charge (t : Time) : Serving Unit := modify fun s => { s with elapsed := s.elapsed + t }

/-- Lifts an operation that may be refused. -/
def attempt {ε α : Type} (wrap : ε → Fault) : Except ε α → Serving α
  | .ok a => return a
  | .error cause => throw (wrap cause)

def setAt (index : Nat) : Serving CacheSet := do
  let c ← theController
  match c.set? index with
  | some set => return set
  | none => throw (.cache (.indexOutOfRange index c.sets.size))

/-- Puts a set back. -/
def storeSet (index : Nat) (set : CacheSet) : Serving Unit :=
  modifyController fun c => { c with sets := c.sets.setIfInBounds index set }

def onStack {α : Type} (step : StackStep α) : Serving α := fun s =>
  match step s.controller.stack with
  | .ok a stack => .ok a { s with controller := { s.controller with stack := stack } }
  | .error cause stack =>
      .error (.timing cause) { s with controller := { s.controller with stack := stack } }

/-- Transfers `bytes` from or to a logical row, after the time elapsed since the arrival. -/
def transfer (arrival : Time) (access : Access) (bytes : Nat) (row : Location) : Serving Unit := do
  let s ← get
  let physical ← attempt .relocation (s.controller.layer.physicalLocation row)
  let done ← onStack (Stack.transfer access bytes physical (arrival + s.elapsed))
  let layer ← attempt .relocation ((← theController).layer.recordAccess row done.requests)
  modifyController fun c => { c with layer := layer }
  charge done.latency

/-- A transfer from the memory behind the cache, with its latency. -/
def load (bytes : Nat) : Serving Unit := do charge ((← theController).memory.accessTime bytes)

/-- A transfer to or from the memory behind the cache that costs its transfer time alone. -/
def stream (bytes : Nat) : Serving Unit := do
  charge ((← theController).memory.bandwidth.transferTime bytes)

end Service

end StackedCache
