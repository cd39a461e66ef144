import StackedCache.Quantity.Time
import StackedCache.Timing.Command

/-!
# What banks have done

An `Activity` sums up the commands a bank has accepted: the time spent on each kind, and how many
there were.
-/

namespace StackedCache

/-- The summed-up commands of a bank, or of several. -/
structure Activity where
  /-- Time spent activating. -/
  activating : Time := .zero
  /-- Time spent precharging. -/
  precharging : Time := .zero
  /-- Time spent on column reads. -/
  reading : Time := .zero
  /-- Time spent on column writes. -/
  writing : Time := .zero
  /-- Time spent refreshing. -/
  refreshing : Time := .zero
  /-- Column reads. -/
  reads : Nat := 0
  /-- Column writes. -/
  writes : Nat := 0
  /-- Column accesses to a row that was open before. -/
  rowHits : Nat := 0
  refreshes : Nat := 0
  deriving DecidableEq, Repr, Inhabited

namespace Activity

instance : Add Activity where
  add a b :=
    { activating := a.activating + b.activating
      precharging := a.precharging + b.precharging
      reading := a.reading + b.reading
      writing := a.writing + b.writing
      refreshing := a.refreshing + b.refreshing
      reads := a.reads + b.reads
      writes := a.writes + b.writes
      rowHits := a.rowHits + b.rowHits
      refreshes := a.refreshes + b.refreshes }

/-- The activities of several banks together. -/
def total (activities : List Activity) : Activity := activities.foldl (· + ·) {}

/-- Column accesses of both directions. -/
def accesses (a : Activity) : Nat := a.reads + a.writes

/-- Row hits among the column accesses, zero without any. -/
def rowHitRate (a : Activity) : Float :=
  if a.accesses = 0 then 0.0 else Float.ofNat a.rowHits / Float.ofNat a.accesses

def record (a : Activity) (command : Command) (latency : Time) (rowHit : Bool) : Activity :=
  let a := if rowHit then { a with rowHits := a.rowHits + 1 } else a
  match command with
  | .act => { a with activating := a.activating + latency }
  | .pre | .prea => { a with precharging := a.precharging + latency }
  | .rd | .rda => { a with reading := a.reading + latency, reads := a.reads + 1 }
  | .wr | .wra => { a with writing := a.writing + latency, writes := a.writes + 1 }
  | .ref | .refsb => { a with refreshing := a.refreshing + latency, refreshes := a.refreshes + 1 }
  | .pde | .pdx | .sre | .srx => a

end Activity

end StackedCache
