import StackedCache.Proofs.Relocation.Cooldown
import StackedCache.Proofs.Relocation.Forgetting
import StackedCache.Proofs.Relocation.Reports
import StackedCache.Proofs.Relocation.Returns

/-!
# The return of rows

The rows that are away are listed when the return starts, row by row, and by the time an entry of the
list is looked at, earlier ones may have brought its row home or put another one into its place.  So
each entry is an attempt of its own, `RowReturn.attempt`, that reads the permutation as it is then.

An attempt leaves everything as it is, or two logical rows exchange places: one goes home and the one
that was there takes over the place it leaves.  In a long cycle that place is neither one's home.
-/

namespace StackedCache

/-! ## One attempt -/

/-- An exchange of one row of two physical banks, read as one of the logical banks on them. -/
theorem Mapping.Sound.physicalOfRow_insert {m : Mapping} {q : Permutation} {row x y : Nat}
    (h : m.Sound) (x_lt : x < m.geometry.totalBanks) (y_lt : y < m.geometry.totalBanks)
    (swap : (m.rowPermutation row).swap? x y = some q) (other id : Nat) :
    ({ m with rows := m.rows.insert row q } : Mapping).physicalOfRow other id =
      if other = row then
        if id = m.logicalOf y then m.physicalOfRow row (m.logicalOf x)
        else if id = m.logicalOf x then m.physicalOfRow row (m.logicalOf y)
        else m.physicalOfRow row id
      else m.physicalOfRow other id := by
  have owner : ∀ k, m.physicalOf id = k ↔ id = m.logicalOf k := by
    intro k
    constructor
    · rintro rfl
      exact (h.logicalOf_physicalOf id).symm
    · rintro rfl
      exact h.physicalOf_logicalOf k
  have redirected := redirect_insert h x_lt y_lt swap other (m.physicalOf id)
  simp only [owner] at redirected
  simp only [physicalOfRow, h.physicalOf_logicalOf]
  exact redirected

namespace Layer

variable {l l' : Layer} {row owner other : Nat}

/-- The row of one logical bank has gone home, and that of another one has taken over the place it
has left. -/
structure RowHome (l l' : Layer) (row owner other : Nat) : Prop where
  ne : owner ≠ other
  /-- The row was away, and the other one was at its home. -/
  occupied : l.mapping.physicalOfRow row other = l.mapping.physicalOf owner
  home : l'.mapping.physicalOfRow row owner = l.mapping.physicalOf owner
  vacated : l'.mapping.physicalOfRow row other = l.mapping.physicalOfRow row owner
  /-- No other row has moved, of these banks or of others. -/
  others : ∀ r id, r ≠ row ∨ id ≠ owner ∧ id ≠ other →
    l'.mapping.physicalOfRow r id = l.mapping.physicalOfRow r id
  /-- Both rows are on cool physical banks. -/
  cool : ∀ id, id = owner ∨ id = other →
    (l'.ledger.temperature (l'.mapping.physicalOfRow row id)).below l'.settings.cool = true
  /-- The two banks, and the owner of the place that is vacated, are out of their cooldown. -/
  free : ∀ id, id = owner ∨ id = other ∨
      id = l.mapping.logicalOf (l.mapping.physicalOfRow row owner) → l.bankFrozen id = false
  /-- Both rows are noted as moved, unless all data of the bank is given up anyway. -/
  noted : ∀ id, id = owner ∨ id = other → l.dropped id = false → l'.rowListed id row = true
  /-- Fewer physical banks are without their own row. -/
  fewer : (l'.mapping.rowPermutation row).moved.length < (l.mapping.rowPermutation row).moved.length

end Layer

namespace Epoch

open Layer Relation

variable {e : Epoch} {r : RowReturn} {row home : Nat}

/-- An exchange that takes a row home, with what has been asked before. -/
theorem rowHome_of_exchange {move : RowMove} {back : Permutation} (h : e.layer.Sound)
    (found : e.rowMove? row home = some move) (ready : e.rowMayReturn move = true)
    (sent : (e.layer.mapping.rowPermutation row).sendHome? home = some (move.occupant, back))
    (c : RelocationCounts) :
    let m := e.layer.mapping
    e.layer.RowHome
      (((e.layer.withMapping { m with rows := m.rows.insert row back }).rowMoved row
        (m.logicalOf home) (m.logicalOf move.occupant)).withCounts c)
      row (m.logicalOf home) (m.logicalOf move.occupant) := by
  intro m
  have inverse : (m.rowPermutation row).Inverse m.geometry.totalBanks :=
    h.mapping.rowPermutation_inverse row
  rcases rowMove?_eq_some_iff.1 found with ⟨p, known, rfl, ne, source, target⟩
  rcases Permutation.sendHome?_eq_some_iff.1 sent with ⟨away, occupied, swap⟩
  rcases inverse.lt_of_source? occupied with ⟨occupant_lt, home_lt⟩
  have there := (inverse.agree move.occupant move.home).2 occupied
  have owner : m.physicalOf (m.logicalOf move.home) = move.home := h.mapping.physicalOf_logicalOf _
  have other : m.physicalOf (m.logicalOf move.occupant) = move.occupant :=
    h.mapping.physicalOf_logicalOf _
  have apart : m.logicalOf move.home ≠ m.logicalOf move.occupant := by
    intro same
    rw [same, other] at owner
    exact ne owner
  -- Where the two rows are before the exchange.
  have place : m.physicalOfRow row (m.logicalOf move.home) = move.place := by
    rw [Mapping.physicalOfRow, owner, Mapping.redirect, known]
    simp [target]
  have occupies : m.physicalOfRow row (m.logicalOf move.occupant) = move.home := by
    rw [Mapping.physicalOfRow, other, Mapping.redirect_eq, there]
    rfl
  have places := h.mapping.physicalOfRow_insert home_lt occupant_lt swap
  have goes := places row (m.logicalOf move.home)
  have comes := places row (m.logicalOf move.occupant)
  rw [if_pos rfl, if_neg apart, if_pos rfl] at goes
  rw [if_pos rfl, if_pos rfl] at comes
  have mapped : Mapping.Sound { m with rows := m.rows.insert row back } :=
    h.mapping.withRow (inverse.swap? swap)
  simp only [rowMayReturn, Bool.and_eq_true, Bool.not_eq_true'] at ready
  rcases ready with ⟨⟨⟨⟨cool, cool'⟩, free⟩, free'⟩, free''⟩
  constructor
  case ne => exact apart
  case occupied => rw [owner, occupies]
  case home => exact goes.trans (occupies.trans owner.symm)
  case vacated => exact comes
  case others =>
    intro r id other
    refine (places r id).trans ?_
    split
    · rename_i same
      subst same
      rcases other.resolve_left (fun differs => differs rfl) with ⟨not_owner, not_other⟩
      rw [if_neg not_other, if_neg not_owner]
    · rfl
  case cool =>
    have silicon := fun {k k' : Nat} (same : k = k') =>
      congrArg (fun k => (e.layer.ledger.temperature k).below e.layer.settings.cool) same
    rintro id (rfl | rfl)
    · exact (silicon (goes.trans occupies)).trans cool
    · exact (silicon (comes.trans place)).trans cool'
  case free =>
    rw [place]
    rintro id (rfl | rfl | rfl)
    · exact free
    · exact free'
    · exact free''
  case noted =>
    intro id side valid
    have exchanged := RowChange.exchange row _ _ back home_lt occupant_lt swap
    refine (noted_rowMoved (h.withMapping mapped rfl) (h.mapping.logicalOf_lt home_lt)
      (h.mapping.logicalOf_lt occupant_lt) side).resolve_right fun dropped => ?_
    rw [exchanged.dropped id, valid] at dropped
    cases dropped
  case fewer =>
    have insert := m.rowPermutation_insert row row back
    rw [if_pos rfl] at insert
    exact lt_of_eq_of_lt (congrArg (fun p => p.moved.length) insert) (inverse.length_moved_lt sent)

/-! ## All attempts -/

/-- The rows that are away, each with the physical banks it is away from. -/
def awayRows (e : Epoch) : List (Nat × Nat) :=
  e.layer.mapping.rows.flatMap fun (row, p) => p.moved.map fun home => (row, home)

/-- An attempt to return a row to a physical bank. -/
def RowReturn.attempt (r : RowReturn) (entry : Nat × Nat) : RowReturn :=
  returnRow entry.1 r entry.2

/-- The return of rows after some attempts. -/
def returning (e : Epoch) (k : Nat) : RowReturn :=
  (e.awayRows.take k).foldl RowReturn.attempt { epoch := e }

theorem returning_succ {k : Nat} {entry : Nat × Nat} (next : e.awayRows[k]? = some entry) :
    e.returning (k + 1) = (e.returning k).attempt entry := by
  rcases List.getElem?_eq_some_iff.1 next with ⟨hk, rfl⟩
  unfold returning
  rw [List.take_succ_eq_append_getElem hk, List.foldl_append]
  rfl

theorem returning_end {k : Nat} (past : e.awayRows[k]? = none) :
    e.returning (k + 1) = e.returning k := by
  have length := List.getElem?_eq_none_iff.1 past
  simp only [returning, List.take_of_length_le length,
    List.take_of_length_le (Nat.le_succ_of_le length)]

/-- The return of one row leaves the permutations of all others as they were. -/
theorem returnRow_find? {other : Nat} (ne : other ≠ row) (r : RowReturn) (home : Nat) :
    (returnRow row r home).epoch.layer.mapping.rows.find? other =
      r.epoch.layer.mapping.rows.find? other := by
  rcases returnRow_cases r row home with same | ⟨move, back, c, _, _, _, moved⟩
  · rw [same]
  · rw [moved]
    exact (Table.find?_insert _ row other back).trans (if_neg ne)

theorem returnRows_find? {other : Nat} (ne : other ≠ row) (homes : List Nat) (r : RowReturn) :
    (homes.foldl (returnRow row) r).epoch.layer.mapping.rows.find? other =
      r.epoch.layer.mapping.rows.find? other := by
  induction homes generalizing r with
  | nil => rfl
  | cons home homes ih => exact (ih _).trans (returnRow_find? ne r home)

/-- Row after row, the banks a row is away from are those listed at the start. -/
theorem returnRowsToAll_eq {rows : Table Permutation} (ascending : rows.Ascending) (r : RowReturn)
    (known : ∀ entry ∈ rows, r.epoch.layer.mapping.rows.find? entry.1 = some entry.2) :
    rows.keys.foldl returnRowToAll r =
      (rows.flatMap fun (row, p) => p.moved.map fun home => (row, home)).foldl
        RowReturn.attempt r := by
  induction rows generalizing r with
  | nil => rfl
  | cons first rows ih =>
      rcases first with ⟨row, p⟩
      simp only [Table.Ascending, Table.keys, List.map_cons, List.pairwise_cons] at ascending
      have here : returnRowToAll r row = p.moved.foldl (returnRow row) r := by
        rw [returnRowToAll, known _ List.mem_cons_self]
      have listed : (p.moved.map fun home => (row, home)).foldl RowReturn.attempt r =
          p.moved.foldl (returnRow row) r := List.foldl_map
      rw [Table.keys, List.map_cons, List.foldl_cons, here, List.flatMap_cons, List.foldl_append,
        listed]
      refine ih ascending.2 _ fun entry member => ?_
      have later := ascending.1 entry.1 (List.mem_map_of_mem member)
      rw [returnRows_find? (Nat.ne_of_gt later)]
      exact known entry (List.mem_cons_of_mem _ member)

/-- The return of rows is one attempt after the other, and then drops what does nothing. -/
theorem recoverRows_eq_returning (h : e.layer.Sound) :
    e.recoverRows = (e.returning e.awayRows.length).close := by
  have known : ∀ entry ∈ e.layer.mapping.rows,
      e.layer.mapping.rows.find? entry.1 = some entry.2 :=
    fun entry member => Table.find?_of_mem h.mapping.ascending member
  rw [recoverRows_eq, returnRowsToAll_eq h.mapping.ascending { epoch := e } known, returning,
    List.take_length]
  rfl

theorem returning_changes (h : e.layer.Sound) (k : Nat) :
    ReflTransGen RowChange e.layer (e.returning k).epoch.layer := by
  induction k with
  | zero => exact .refl
  | succ k ih =>
      cases next : e.awayRows[k]? with
      | none =>
          rw [returning_end next]
          exact ih
      | some entry =>
          rw [returning_succ next]
          exact ih.trans (returnRow_change ((Change.rows ih).sound h))

/-- What the return of rows does, attempt by attempt. -/
structure RowsReturn (e e' : Epoch) : Prop where
  /-- An attempt leaves everything as it is, or takes the row home. -/
  attempts : ∀ k row home, e.awayRows[k]? = some (row, home) →
    e.returning (k + 1) = e.returning k ∨
      ∃ other, (e.returning k).epoch.layer.RowHome (e.returning (k + 1)).epoch.layer row
        ((e.returning k).epoch.layer.mapping.logicalOf home) other
  /-- In the end all rows are where the attempts have left them, and the entries of banks too. -/
  places : e'.layer.mapping.physicalOfRow =
    (e.returning e.awayRows.length).epoch.layer.mapping.physicalOfRow
  banks : e'.layer.banks = (e.returning e.awayRows.length).epoch.layer.banks
  /-- Every row that has moved is on a cool physical bank. -/
  cool : ∀ row id, e'.layer.mapping.physicalOfRow row id ≠ e.layer.mapping.physicalOfRow row id →
    (e'.layer.ledger.temperature (e'.layer.mapping.physicalOfRow row id)).below
      e'.layer.settings.cool = true

theorem attempt_home (h : r.epoch.layer.Sound) (row home : Nat) :
    r.attempt (row, home) = r ∨
      ∃ other, r.epoch.layer.RowHome (r.attempt (row, home)).epoch.layer row
        (r.epoch.layer.mapping.logicalOf home) other := by
  refine (returnRow_cases r row home).imp_right ?_
  rintro ⟨move, back, c, found, ready, sent, moved⟩
  rw [RowReturn.attempt, moved]
  exact ⟨_, rowHome_of_exchange h found ready sent c⟩

/-- After some attempts, every row that has moved is on a cool physical bank. -/
theorem returning_cool (h : e.layer.Sound) (k row id : Nat)
    (moved : (e.returning k).epoch.layer.mapping.physicalOfRow row id ≠
      e.layer.mapping.physicalOfRow row id) :
    (e.layer.ledger.temperature
      ((e.returning k).epoch.layer.mapping.physicalOfRow row id)).below
        e.layer.settings.cool = true := by
  induction k with
  | zero => exact absurd rfl moved
  | succ k ih =>
      have changes := returning_changes h k
      cases next : e.awayRows[k]? with
      | none =>
          rw [returning_end next] at moved ⊢
          exact ih moved
      | some entry =>
          rcases entry with ⟨away, home⟩
          have later := (Change.rows (returning_changes h (k + 1))).frame
          have sound := (Change.rows changes).sound h
          rcases attempt_home sound away home with same | ⟨other, goes⟩
          · rw [returning_succ next, same] at moved ⊢
            exact ih moved
          · rw [← returning_succ next] at goes
            -- The two rows that move are asked for, and the others are where they were.
            by_cases here : row = away ∧
                (id = (e.returning k).epoch.layer.mapping.logicalOf home ∨ id = other)
            · rcases here with ⟨rfl, side⟩
              have cool := goes.cool id side
              rwa [later.ledger, later.settings] at cool
            · have stays := goes.others row id (by tauto)
              rw [stays] at moved ⊢
              exact ih moved

theorem recoverRows_returns (h : e.layer.Sound) : RowsReturn e e.recoverRows := by
  have ends := recoverRows_eq_returning h
  have changes := returning_changes h e.awayRows.length
  have sound := (Change.rows changes).sound h
  have places : e.recoverRows.layer.mapping.physicalOfRow =
      (e.returning e.awayRows.length).epoch.layer.mapping.physicalOfRow := by
    rw [ends]
    exact sound.unmoved_dropIdentities.rows
  refine ⟨fun k row home next => ?_, places, by rw [ends]; rfl, fun row id moved => ?_⟩
  · rw [returning_succ next]
    exact attempt_home ((Change.rows (returning_changes h k)).sound h) row home
  · have frame := (Change.rows (recoverRows_change h)).frame
    rw [places] at moved ⊢
    rw [frame.ledger, frame.settings]
    exact returning_cool h _ row id moved

end Epoch

namespace Layer

/-- In every run of the policy that migrates rows, and in every epoch, the return of rows takes them
home one by one, in cycles of any length. -/
theorem run_rows_return (s : RelocationSettings) (g : Geometry) (ops : List Operation) :
    let l := (ofSettings s g).run ops
    ∀ n, l.turns[n]? = some .recoverRows → Epoch.RowsReturn (l.epochAt n) (l.epochAt (n + 1)) := by
  intro l n next
  have sound : l.Sound := run_sound (ofSettings_sound s g) ops
  rw [epochAt_succ next]
  exact Epoch.recoverRows_returns (stage_sound sound n)

/-- A row is moved around three banks, of which the last in the cycle stays too warm to take part.
The row of bank 2 goes home, and the row of bank 3, which was there, comes to bank 1. -/
theorem run_rows_return_cycle :
    let l := (ofSettings { policy := .hybrid } ⟨1, 4, 8⟩).run
      [.recordAccess ⟨0, 1, 5⟩ 1, .recordAccess ⟨0, 3, 5⟩ 1, .setTemperature ⟨0, 1⟩ ⟨92.0⟩,
        .setTemperature ⟨0, 3⟩ ⟨50.0⟩, .runEpoch, .setTemperature ⟨0, 1⟩ ⟨84.0⟩,
        .setTemperature ⟨0, 2⟩ ⟨40.0⟩, .setTemperature ⟨0, 3⟩ ⟨92.0⟩, .runEpoch, .runEpoch,
        .setTemperature ⟨0, 1⟩ ⟨60.0⟩, .setTemperature ⟨0, 3⟩ ⟨84.0⟩, .runEpoch]
    l.turns[4]? = some .recoverRows ∧ (l.epochAt 4).awayRows = [(5, 1), (5, 2), (5, 3)] ∧
      (l.epochAt 5).layer.mapping.physicalOfRow 5 3 = 1 ∧
      ∃ other, ((l.epochAt 4).returning 1).epoch.layer.RowHome
        ((l.epochAt 4).returning 2).epoch.layer 5 2 other := by
  intro l
  have turn : l.turns[4]? = some .recoverRows := by decide +kernel
  have away : (l.epochAt 4).awayRows = [(5, 1), (5, 2), (5, 3)] := by decide +kernel
  have comes : (l.epochAt 5).layer.mapping.physicalOfRow 5 3 = 1 := by decide +kernel
  have owner : ((l.epochAt 4).returning 1).epoch.layer.mapping.logicalOf 2 = 2 := by decide +kernel
  have moves : ((l.epochAt 4).returning 2).epoch.layer.mapping.physicalOfRow 5 2 ≠
      ((l.epochAt 4).returning 1).epoch.layer.mapping.physicalOfRow 5 2 := by
    decide +kernel
  have returns : Epoch.RowsReturn (l.epochAt 4) (l.epochAt 5) :=
    run_rows_return { policy := .hybrid } ⟨1, 4, 8⟩ _ 4 turn
  clear_value l
  have second := returns.attempts 1 5 2 (by rw [away]; rfl)
  rw [owner] at second
  refine ⟨turn, away, comes, second.resolve_left fun same => moves ?_⟩
  rw [same]

end Layer

end StackedCache
