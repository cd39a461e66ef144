import StackedCache.Service.Controller

/-!
# Consequences of relocation

After an epoch some sets of the cache are stored in banks whose data is gone, and some in rows that
have moved.  The next request draws the consequences: the first kind of set is emptied and its dirty
blocks are written back, the second kind costs the transfer of its blocks from row to row.

Vaults work in parallel, so the request waits for the vault with the most to do.
-/

namespace StackedCache

/-- What relocation means for a set. -/
inductive Consequence where
  | none
  /-- The content is lost. -/
  | dropped
  /-- The content has moved. -/
  | moved
  deriving DecidableEq, Repr

/-- The consequence for a set stored at a logical row. -/
def Layer.consequence (l : Layer) (row : Location) : Consequence :=
  if !l.contentValid row.place then .dropped
  else if l.rowMigrated row then .moved
  else .none

/-- What the consequences for some sets amount to. -/
structure Toll where
  /-- The time each logical vault takes. -/
  vaults : Array Time
  counts : CacheCounts

namespace Controller

/-- The time to write dirty blocks back. -/
def writebackTime (c : Controller) (blocks : Nat) : Time :=
  c.memory.bandwidth.transferTime (blocks * c.blockSize)

/-- The time to move blocks within the stack, out of one row and into the other. -/
def moveTime (c : Controller) (blocks : Nat) : Time :=
  c.stack.bandwidth.transferTime (blocks * c.blockSize * 2)

end Controller

namespace Toll

/-- Lets a vault work longer. -/
def work (t : Toll) (vault : Nat) (time : Time) : Toll :=
  { t with vaults := t.vaults.modify vault (· + time) }

def addDropped (c : Controller) (t : Toll) (set : CacheSet) : Toll :=
  let valid := set.validBlocks
  let dirty := set.droppedDirty
  let n := t.counts
  let n :=
    if valid = 0 then n
    else
      { n with
        invalidations := n.invalidations + 1
        invalidatedBlocks := n.invalidatedBlocks + valid }
  { t with counts := { n with writebackBlocks := n.writebackBlocks + dirty } }.work
    set.placement.vault (c.writebackTime dirty)

/-- Accounts for a set that has moved; an empty one has nothing to move. -/
def addMoved (c : Controller) (t : Toll) (set : CacheSet) : Toll :=
  let valid := set.validBlocks
  if valid = 0 then t
  else
    let n := t.counts
    { t with
      counts :=
        { n with
          migrations := n.migrations + 1
          migratedBlocks := n.migratedBlocks + valid } }.work
      set.placement.vault (c.moveTime valid)

def add (c : Controller) (t : Toll) (set : CacheSet) : Toll :=
  match c.layer.consequence set.placement with
  | .none => t
  | .dropped => addDropped c t set
  | .moved => addMoved c t set

end Toll

namespace Controller

def settleSet (c : Controller) (set : CacheSet) : CacheSet :=
  match c.layer.consequence set.placement with
  | .dropped => set.drop
  | _ => set

/-- The toll of all sets. -/
def toll (c : Controller) : Toll :=
  c.sets.foldl (Toll.add c)
    { vaults := Array.replicate c.stack.geometry.vaults Time.zero, counts := c.counts }

/-- Draws the consequences of relocation and returns the time that takes. -/
def drawConsequences (c : Controller) : Time × Controller :=
  if c.layer.pending then
    let toll := c.toll
    (.longest toll.vaults.toList,
      { c with sets := c.sets.map c.settleSet, counts := toll.counts, layer := c.layer.settle })
  else
    (.zero, c)

end Controller

end StackedCache
