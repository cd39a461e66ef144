import StackedCache.Relocation.HotRows

/-!
# Entries of the relocation table

There is an `Entry` for each logical bank and each logical vault.  It holds what heat has done to it,
and what follows for the data in it, until the cache has drawn the consequences.
-/

namespace StackedCache

/-- The state of a logical bank or vault. -/
structure Entry where
  id : Nat
  /-- The cached data may still be used. -/
  contentValid : Bool := true
  /-- Not in use. -/
  disabled : Bool := false
  /-- Disabled when it was displaced already. -/
  doubleDisabled : Bool := false
  /-- The epoch of the last move. -/
  movedAt : Option Nat := none
  /-- DRAM requests for the entity. -/
  accesses : Nat := 0
  hotRows : HotRows
  /-- Rows whose data has moved, ascending. -/
  migratedRows : List Nat := []
  deriving DecidableEq, Repr, Inhabited

namespace Entry

/-- An entry in use, with the given number of row counters. -/
def fresh (hotRows id : Nat) : Entry := { id := id, hotRows := { capacity := hotRows } }

/-- The last move is at most `cooldown` epochs ago. -/
def frozen (e : Entry) (epoch cooldown : Nat) : Bool :=
  match e.movedAt with
  | some at_ => epoch - at_ ≤ cooldown
  | none => false

/-- The cache has consequences to draw. -/
def pending (e : Entry) : Bool := !e.contentValid || !e.migratedRows.isEmpty

def recordAccess (e : Entry) (row requests : Nat) : Entry :=
  { e with accesses := e.accesses + requests, hotRows := e.hotRows.record row }

def markMoved (e : Entry) (epoch : Nat) : Entry := { e with movedAt := some epoch }

/-- Gives up the cached data; the rows need no care of their own then. -/
def invalidate (e : Entry) : Entry := { e with contentValid := false, migratedRows := [] }

/-- Notes that a row has moved, unless all data is given up anyway. -/
def migrateRow (e : Entry) (row : Nat) : Entry :=
  if e.contentValid then { e with migratedRows := insertAscending row e.migratedRows } else e

/-- Takes the entity out of use. -/
def disable (e : Entry) (double : Bool) : Entry :=
  { e with disabled := true, doubleDisabled := double }.invalidate

/-- Takes the entity into use again. -/
def enable (e : Entry) : Entry := { e with disabled := false, doubleDisabled := false }

/-- The consequences are drawn. -/
def settle (e : Entry) : Entry := { e with contentValid := true, migratedRows := [] }

def resetCounts (e : Entry) : Entry := { e with accesses := 0, hotRows := e.hotRows.clear }

end Entry

end StackedCache
