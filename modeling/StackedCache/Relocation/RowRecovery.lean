import StackedCache.Relocation.Epoch

/-!
# Return of migrated rows

A row that was moved away from a hot bank goes back once its home and its present place are cool.
Whichever row has taken its home moves to the place it leaves.  A redirection that has become the
identity is dropped.
-/

namespace StackedCache.Epoch

/-- An epoch during the return of rows, with the logical banks that have got a row back. -/
structure RowReturn where
  epoch : Epoch
  /-- Logical banks, ascending. -/
  owners : List Nat := []

/-- The banks between which a row's return moves data. -/
structure RowMove where
  /-- The physical bank the row belongs to. -/
  home : Nat
  /-- The physical bank whose row is at the home. -/
  occupant : Nat
  /-- The physical bank that has the row. -/
  place : Nat

/-- The move that returns a row to a physical bank, if it is away. -/
def rowMove? (e : Epoch) (row home : Nat) : Option RowMove := do
  let p ← e.layer.mapping.rows.find? row
  let occupant ← p.source? home
  let place ← p.target? home
  if occupant = home then none else some ⟨home, occupant, place⟩

/-- The home and the present place are cool, and none of the logical banks is in its cooldown. -/
def rowMayReturn (e : Epoch) (move : RowMove) : Bool :=
  let cool (physical : Nat) : Bool :=
    (e.layer.ledger.temperature physical).below e.layer.settings.cool
  let free (physical : Nat) : Bool := !e.layer.bankFrozen (e.layer.mapping.logicalOf physical)
  cool move.home && cool move.place && free move.home && free move.occupant && free move.place

/-- Returns a row to a physical bank, if it is time. -/
def returnRow (row : Nat) (r : RowReturn) (home : Nat) : RowReturn :=
  let e := r.epoch
  match e.rowMove? row home with
  | none => r
  | some move =>
      if e.rowMayReturn move then
        let m := e.layer.mapping
        match (m.rowPermutation row).sendHome? home with
        | none => r
        | some (_, back) =>
            let owner := m.logicalOf home
            let other := m.logicalOf move.occupant
            let e := e.withMapping { m with rows := m.rows.insert row back }
            let e := (e.modifyBank owner (·.migrateRow row)).modifyBank other (·.migrateRow row)
            let e := e.counting fun c => { c with rowMigrations := c.rowMigrations + 1 }
            if r.owners.contains owner then { r with epoch := e }
            else
              { epoch := e.counting fun c => { c with recoveries := c.recoveries + 1 }
                owners := insertAscending owner r.owners }
      else r

/-- Returns one row to all the banks it is away from. -/
def returnRowToAll (r : RowReturn) (row : Nat) : RowReturn :=
  match r.epoch.layer.mapping.rows.find? row with
  | none => r
  | some p => p.moved.foldl (returnRow row) r

/-- Drops the redirections that do nothing. -/
def dropIdentities (e : Epoch) : Epoch :=
  let m := e.layer.mapping
  e.withMapping { m with rows := m.rows.filter fun (_, p) => !p.isIdentity }

/-- Returns rows, and reports the banks that have got some back. -/
def recoverRows (e : Epoch) : Epoch :=
  let r := e.layer.mapping.rows.keys.foldl returnRowToAll { epoch := e }
  let e := r.epoch.dropIdentities
  e.reporting fun report =>
    { report with recoveredBanks := report.recoveredBanks ++ r.owners.map e.place }

end StackedCache.Epoch
