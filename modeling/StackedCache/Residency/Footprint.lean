import StackedCache.Residency.BlockSet

/-!
# Footprint history

A bounded table that predicts which blocks of a page will be used.  The key is the block whose access
fills the page; the prediction is what the last page filled under that key used.
-/

namespace StackedCache

/-- A table of predicted footprints. -/
structure FootprintHistory where
  entries : Array BlockSet
  /-- The blocks a page has. -/
  page : BlockSet
  /-- Predictions made. -/
  lookups : Nat := 0
  /-- Footprints recorded. -/
  updates : Nat := 0
  deriving Inhabited

namespace FootprintHistory

/-- A table of empty predictions with at least one entry. -/
def ofSize (entries blocksPerPage : Nat) : FootprintHistory where
  entries := Array.replicate (max entries 1) .empty
  page := .below (min blocksPerPage maxBlocks)

/-- The key of a page that is filled because of a block. -/
def key (h : FootprintHistory) (block : Nat) : Nat := block % h.entries.size

/-- The prediction under a key. -/
def peek (h : FootprintHistory) (key : Nat) : BlockSet :=
  (h.entries[key % h.entries.size]?).getD .empty

/-- The prediction under a key, counted. -/
def predict (h : FootprintHistory) (key : Nat) : BlockSet × FootprintHistory :=
  (h.peek key, { h with lookups := h.lookups + 1 })

/-- Replaces the prediction under a key by what a page used. -/
def record (h : FootprintHistory) (key : Nat) (footprint : BlockSet) : FootprintHistory :=
  { h with
    entries := h.entries.setIfInBounds (key % h.entries.size) (footprint.inter h.page)
    updates := h.updates + 1 }

/-- Forgets the counts and keeps the predictions. -/
def resetCounts (h : FootprintHistory) : FootprintHistory := { h with lookups := 0, updates := 0 }

end FootprintHistory

end StackedCache
