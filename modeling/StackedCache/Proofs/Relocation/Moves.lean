import StackedCache.Proofs.Relocation.FrozenVaults
import StackedCache.Proofs.Relocation.Marks
import StackedCache.Proofs.Relocation.Migration

/-!
# Moves

What a turn does to places, to the marks of entities and to the reports of moves.  There are five
kinds of moves, each with what had to hold for it: `Epoch.Moves`.  A turn that makes none of them
leaves all places of banks and vaults and all marks alone, `take_moves`.
-/

namespace StackedCache

open Relation (ReflTransGen)

/-- The moves that have been reported. -/
def Report.moves (r : Report) :
    List (BankPlace × BankPlace) × List RowMigration × List (Nat × Nat) :=
  (r.bankSwaps, r.rowMigrations, r.vaultSwaps)

/-- The physical bank of a bank is the target of its slot. -/
theorem Mapping.Sound.target?_slotOf {m : Mapping} {id : Nat} (h : m.Sound)
    (id_lt : id < m.geometry.totalBanks) :
    m.banks.target? (m.slotOf id) = some (m.physicalOf id) := by
  rcases h.banks.exists_target? (h.slotOf_lt id_lt) with ⟨physical, found⟩
  rw [physicalOf, found]
  rfl

namespace Epoch

open Layer

variable {e e' e'' : Epoch} {t : Turn} {id other target v w : Nat} {q : Permutation}

/-! ## Turns that move nothing -/

/-- No bank, vault or row has moved, and no move is reported. -/
structure Still (e e' : Epoch) : Prop where
  mapping : e'.layer.mapping = e.layer.mapping
  mark : e'.layer.mark = e.layer.mark
  moves : e'.report.moves = e.report.moves

namespace Still

theorem refl (e : Epoch) : Still e e := ⟨rfl, rfl, rfl⟩

theorem trans (h : Still e e') (h' : Still e' e'') : Still e e'' where
  mapping := h'.mapping.trans h.mapping
  mark := h'.mark.trans h.mark
  moves := h'.moves.trans h.moves

theorem modifyBank (e : Epoch) (id : Nat) (f : Entry → Entry)
    (hf : ∀ entry, (f entry).movedAt = entry.movedAt := by exact fun _ => rfl) :
    Still e (e.modifyBank id f) where
  mapping := rfl
  mark := mark_modifyBank e.layer id f hf
  moves := rfl

theorem modifyVault (e : Epoch) (v : Nat) (f : Entry → Entry)
    (hf : ∀ entry, (f entry).movedAt = entry.movedAt := by exact fun _ => rfl) :
    Still e (e.modifyVault v f) where
  mapping := rfl
  mark := mark_modifyVault e.layer v f hf
  moves := rfl

theorem disableBank (e : Epoch) (id : Nat) (double : Bool) : Still e (e.disableBank id double) := by
  refine (modifyBank e id (·.disable double)).trans ?_
  unfold Epoch.disableBank
  split <;> exact ⟨rfl, rfl, rfl⟩

theorem enableBank (e : Epoch) (id : Nat) : Still e (e.enableBank id) :=
  (modifyBank e id Entry.enable).trans ⟨rfl, rfl, rfl⟩

theorem enableVault (e : Epoch) (v : Nat) : Still e (e.enableVault v) :=
  (modifyVault e v Entry.enable).trans ⟨rfl, rfl, rfl⟩

theorem disableVault (e : Epoch) (v : Nat) : Still e (e.disableVault v) := by
  refine (modifyVault e v (·.disable false)).trans ⟨?_, ?_, rfl⟩
  · exact modifyBanks_mapping _ _ _
  · exact mark_modifyBanks _ (e.layer.geometry.bankIdsOf v) Entry.invalidate

/-- Noting a failure moves nothing. -/
theorem of_noted (noted : e' = e ∨ e' = e.failBank id) : Still e e' := by
  rcases noted with rfl | rfl
  · exact .refl _
  · exact ⟨rfl, rfl, rfl⟩

theorem switchBank (e : Epoch) (id : Nat) : Still e (e.switchBank id) := by
  unfold Epoch.switchBank
  dsimp only
  split
  · split
    · exact enableBank e id
    · exact .refl e
  · split
    · exact disableBank e id false
    · exact .refl e

theorem switchVault (e : Epoch) (v : Nat) : Still e (e.switchVault v) := by
  unfold Epoch.switchVault
  dsimp only
  split
  · split
    · exact enableVault e v
    · exact .refl e
  · split
    · exact disableVault e v
    · exact .refl e

end Still

/-! ## Rows -/

/-- No bank or vault has moved, though rows may have, and no move is reported. -/
structure RowsOnly (e e' : Epoch) : Prop where
  mapping : ∃ rows, e'.layer.mapping = { e.layer.mapping with rows := rows }
  mark : e'.layer.mark = e.layer.mark
  moves : e'.report.moves = e.report.moves

namespace RowsOnly

theorem refl (e : Epoch) : RowsOnly e e := ⟨⟨_, rfl⟩, rfl, rfl⟩

theorem trans (h : RowsOnly e e') (h' : RowsOnly e' e'') : RowsOnly e e'' where
  mapping := by
    rcases h.mapping with ⟨first, mapping⟩
    rcases h'.mapping with ⟨second, mapping'⟩
    rw [mapping] at mapping'
    exact ⟨second, mapping'⟩
  mark := h'.mark.trans h.mark
  moves := h'.moves.trans h.moves

/-- A row that two banks exchange is noted for both of them. -/
theorem exchange (e : Epoch) (rows : Table Permutation) (row a b : Nat) :
    RowsOnly e
      (((e.withMapping { e.layer.mapping with rows := rows }).modifyBank a
        (·.migrateRow row)).modifyBank b (·.migrateRow row)) where
  mapping := ⟨rows, rfl⟩
  mark := by
    have migrated : ∀ entry : Entry, (entry.migrateRow row).movedAt = entry.movedAt := by
      intro entry
      unfold Entry.migrateRow
      split <;> rfl
    have first := mark_modifyBank e.layer a _ migrated
    have second := mark_modifyBank (e.layer.modifyBank a (·.migrateRow row)) b _ migrated
    exact second.trans first
  moves := rfl

theorem counting (h : RowsOnly e e') (f : RelocationCounts → RelocationCounts) :
    RowsOnly e (e'.counting f) :=
  ⟨h.mapping, h.mark, h.moves⟩

theorem exchangeRow (id other x y : Nat) (e : Epoch) (row : Nat) :
    RowsOnly e (exchangeRow id other x y e row) := by
  unfold Epoch.exchangeRow
  dsimp only
  split
  · exact ⟨⟨_, rfl⟩, rfl, rfl⟩
  · exact (exchange e _ row id other).counting _

theorem through_exchangeRow (id other x y : Nat) (rows : List Nat) (e : Epoch) :
    RowsOnly e (e.through rows (Epoch.exchangeRow id other x y)) := by
  induction rows generalizing e with
  | nil => exact .refl e
  | cons row rows ih => exact (exchangeRow id other x y e row).trans (ih _)

theorem returnRow (row home : Nat) (r : RowReturn) :
    RowsOnly r.epoch (returnRow row r home).epoch := by
  unfold Epoch.returnRow
  dsimp only
  split
  · exact .refl _
  · split
    · split
      · exact .refl _
      · split
        · dsimp only
          exact (exchange r.epoch _ row _ _).counting _
        · dsimp only
          exact ((exchange r.epoch _ row _ _).counting _).counting _
    · exact .refl _

end RowsOnly

/-- Every step of the return of rows moves rows only; what is reported at its end are banks that
have got rows back. -/
theorem recoverRows_rowsOnly (e : Epoch) : RowsOnly e e.recoverRows := by
  have toAll : ∀ (row : Nat) (homes : List Nat) (r : RowReturn),
      RowsOnly r.epoch (homes.foldl (returnRow row) r).epoch := by
    intro row homes
    induction homes with
    | nil => exact fun r => .refl r.epoch
    | cons home homes ih => exact fun r => (RowsOnly.returnRow row home r).trans (ih _)
  have rows : ∀ (rows : List Nat) (r : RowReturn),
      RowsOnly r.epoch (rows.foldl returnRowToAll r).epoch := by
    intro rows
    induction rows with
    | nil => exact fun r => .refl r.epoch
    | cons row rows ih =>
        intro r
        refine .trans ?_ (ih _)
        unfold returnRowToAll
        split
        · exact .refl r.epoch
        · exact toAll row _ r
  have returned := rows e.layer.mapping.rows.keys { epoch := e }
  unfold recoverRows
  exact returned.trans ⟨⟨_, rfl⟩, rfl, rfl⟩

/-! ## Moves of a turn -/

/-- What a turn moves, and what has to hold for it.  Banks exchange slots, vaults exchange physical
vaults, and both are marked with the current epoch. -/
inductive Moves (e : Epoch) : Turn → Epoch → Prop where
  | still {t : Turn} {e' : Epoch} (same : Still e e') : Moves e t e'
  /-- A bank goes home, and the bank in its slot takes over the slot it leaves. -/
  | returnBank {e' : Epoch} (id other : Nat) (q : Permutation)
      (id_lt : id < e.layer.geometry.totalBanks) (other_lt : other < e.layer.geometry.totalBanks)
      (ne : id ≠ other) (away : e.layer.mapping.banks.fixes (e.layer.mapping.slotOf id) = false)
      (there : e.layer.mapping.physicalOf other = e.layer.mapping.slotOf id)
      (free : e.layer.bankFrozen id = false ∧ e.layer.bankFrozen other = false)
      (mild : (e.layer.temperatureOf id).reaches e.layer.settings.cool = false ∧
        (e.layer.temperatureOf other).reaches e.layer.settings.cool = false)
      (swap : e.layer.mapping.banks.swap? (e.layer.mapping.slotOf id)
        (e.layer.mapping.slotOf other) = some q)
      (mapping : e'.layer.mapping = { e.layer.mapping with banks := q })
      (marked : Marked e.layer.epoch (.bank id) (.bank other) e.layer e'.layer)
      (moves : e'.report.moves = e.report.moves) : Moves e (.recoverBank id) e'
  /-- A hot bank and the owner of a cool one, both at home, exchange slots. -/
  | swapBanks {e' : Epoch} (id target : Nat) (q : Permutation)
      (id_lt : id < e.layer.geometry.totalBanks) (ne : id ≠ e.layer.mapping.logicalOf target)
      (needy : e.bankNeedsRelief id = true) (home : e.layer.mapping.displaced id = false)
      (found : e.bankTarget? true (e.layer.mapping.physicalOf id) = some target)
      (swap : e.layer.mapping.banks.swap? (e.layer.mapping.slotOf id)
        (e.layer.mapping.slotOf (e.layer.mapping.logicalOf target)) = some q)
      (mapping : e'.layer.mapping = { e.layer.mapping with banks := q })
      (marked : Marked e.layer.epoch (.bank id) (.bank (e.layer.mapping.logicalOf target)) e.layer
        e'.layer)
      (moves : e'.report.moves =
        (e.report.bankSwaps ++ [(e.place id, e.place (e.layer.mapping.logicalOf target))],
          e.report.rowMigrations, e.report.vaultSwaps)) :
      Moves e (.relieveBank .swapping id) e'
  /-- Rows of a hot bank and of the owner of a cool one exchange places. -/
  | migrateRows {e' : Epoch} (id target : Nat) (rows : List Nat)
      (id_lt : id < e.layer.geometry.totalBanks) (ne : id ≠ e.layer.mapping.logicalOf target)
      (needy : e.bankNeedsRelief id = true)
      (found : e.bankTarget? false (e.layer.mapping.physicalOf id) = some target)
      (mapping : ∃ rows, e'.layer.mapping = { e.layer.mapping with rows := rows })
      (marked : Marked e.layer.epoch (.bank id) (.bank (e.layer.mapping.logicalOf target)) e.layer
        e'.layer)
      (moves : e'.report.moves =
        (e.report.bankSwaps, e.report.rowMigrations ++
          [⟨e.place id, e.place (e.layer.mapping.logicalOf target), rows⟩], e.report.vaultSwaps)) :
      Moves e (.relieveBank .migrating id) e'
  /-- A vault goes home, and the vault in its place takes over the place it leaves. -/
  | returnVault {e' : Epoch} (v w : Nat) (q : Permutation) (v_lt : v < e.layer.geometry.vaults)
      (ne : v ≠ w) (away : e.layer.mapping.vaults.fixes v = false)
      (there : e.layer.mapping.vaults.target? w = some v)
      (free : e.layer.vaultFrozen v = false ∧ e.layer.vaultFrozen w = false)
      (swap : e.layer.mapping.vaults.swap? v w = some q)
      (mapping : e'.layer.mapping = { e.layer.mapping with vaults := q })
      (marked : Marked e.layer.epoch (.vault v) (.vault w) e.layer e'.layer)
      (moves : e'.report.moves = e.report.moves) : Moves e (.recoverVault v) e'
  /-- A hot and a cool vault, both at home, exchange places. -/
  | swapVaults {e' : Epoch} (v w : Nat) (q : Permutation) (v_lt : v < e.layer.geometry.vaults)
      (ne : v ≠ w)
      (home : e.layer.mapping.vaults.fixes v = true ∧ e.layer.mapping.vaults.fixes w = true)
      (free : e.layer.vaultFrozen v = false ∧ e.layer.vaultFrozen w = false)
      (cool : (e.layer.ledger.vaultTemperature w).below e.layer.settings.cool = true)
      (swap : e.layer.mapping.vaults.swap? v w = some q)
      (mapping : e'.layer.mapping = { e.layer.mapping with vaults := q })
      (marked : Marked e.layer.epoch (.vault v) (.vault w) e.layer e'.layer)
      (moves : e'.report.moves =
        (e.report.bankSwaps, e.report.rowMigrations, e.report.vaultSwaps ++ [(v, w)])) :
      Moves e (.relieveVault v) e'
  /-- Rows return, of which the times of moves know nothing. -/
  | returnRows {e' : Epoch} (rows : RowsOnly e e') : Moves e .recoverRows e'

/-! ### Banks -/

/-- The owner of a target at home is in its slot. -/
theorem slot_of_target {hot : Nat} (found : e.bankTarget? true hot = some target) :
    e.layer.mapping.banks.fixes
      (e.layer.mapping.slotOf (e.layer.mapping.logicalOf target)) = true := by
  have eligible := (List.mem_filter.1 (Celsius.coolest?_mem found)).2
  simp only [bankEligible, Mapping.displaced, Bool.true_and, Bool.not_or, Bool.not_not,
    Bool.and_eq_true] at eligible
  exact eligible.2.1

theorem sendBankHome_moves (e : Epoch) (id : Nat) :
    (e.sendBankHome id).report.moves = e.report.moves := by
  rcases sendBankHome_report e id with ⟨banks, same⟩
  rw [same]
  rfl

theorem recoverBank_inv (h : e.layer.Sound) (id_lt : id < e.layer.geometry.totalBanks) :
    Moves e (.recoverBank id) (e.recoverBank id) := by
  unfold recoverBank
  split
  · exact .still (.refl e)
  · rename_i mild
    split
    · exact .still (.enableBank e id)
    · split
      · rename_i ready
        simp only [bankMayGoHome, Bool.and_eq_true, Bool.not_eq_true'] at ready
        rcases ready with ⟨⟨away, free⟩, cool⟩
        rcases sendBankHome_exchange h id with
          stays | ⟨other, q, c, other_lt, ne, free', there, swap, moved⟩
        · rw [stays]
          exact .still (.refl e)
        · have mild' : (e.layer.temperatureOf other).reaches e.layer.settings.cool = false := by
            rwa [temperatureOf, there]
          refine .returnBank id other q id_lt other_lt ne away there ⟨free, free'⟩
            ⟨by simpa using mild, mild'⟩ swap ?_ ?_ (sendBankHome_moves e id)
          · rw [moved]
            rfl
          · rw [moved]
            exact marked_exchangeBanks h id_lt other_lt swap c
      · exact .still (.refl e)

theorem swapBanks_moves (swap : e.layer.mapping.banks.swap? (e.layer.mapping.slotOf id)
      (e.layer.mapping.slotOf other) = some q) :
    (e.swapBanks id other).report.moves =
      (e.report.bankSwaps ++ [(e.place id, e.place other)], e.report.rowMigrations,
        e.report.vaultSwaps) := by
  simp only [swapBanks, swap]
  rfl

theorem migrateRows_moves (id other x y : Nat) (rows : List Nat) (e : Epoch) :
    (e.migrateRows id other x y rows).report.moves =
      (e.report.bankSwaps, e.report.rowMigrations ++ [⟨e.place id, e.place other, rows⟩],
        e.report.vaultSwaps) := by
  rcases (RowsOnly.through_exchangeRow id other x y rows e).mapping with ⟨rows', mapping⟩
  have geometry :
      (e.through rows (exchangeRow id other x y)).layer.geometry = e.layer.geometry := by
    rw [geometry, mapping]
    rfl
  have report := through_exchangeRow_report id other x y rows e
  unfold place
  rw [← geometry, ← report]
  rfl

/-- A migration marks both banks. -/
theorem marked_migrateRows {atHome : Bool} (h : e.layer.Sound)
    (id_lt : id < e.layer.geometry.totalBanks)
    (found : e.bankTarget? atHome (e.layer.mapping.physicalOf id) = some target) (rows : List Nat) :
    Marked e.layer.epoch (.bank id) (.bank (e.layer.mapping.logicalOf target)) e.layer
      (e.migrateRows id (e.layer.mapping.logicalOf target) (e.layer.mapping.physicalOf id) target
        rows).layer := by
  have physical_lt := h.mapping.physicalOf_lt id_lt
  have target_lt := (bankTarget?_range found physical_lt).1
  have other_lt : e.layer.mapping.logicalOf target < e.layer.geometry.totalBanks :=
    h.mapping.logicalOf_lt target_lt
  have exchanged := Change.rows (through_exchangeRow_change rows h physical_lt target_lt
    (h.mapping.logicalOf_physicalOf id) rfl)
  have frame := exchanged.frame
  have unmarked := (RowsOnly.through_exchangeRow id (e.layer.mapping.logicalOf target)
    (e.layer.mapping.physicalOf id) target rows e).mark
  rw [← frame.geometry] at id_lt other_lt
  -- The marks are set after the exchanges, which have touched none.
  have marked := marked_modifyBank (f := (·.markMoved e.layer.epoch)) (exchanged.sound h)
    id_lt other_lt (fun _ => rfl) fun _ => rfl
  intro z
  rw [← unmarked, ← frame.epoch]
  rw [← frame.epoch] at marked
  exact marked z

theorem relieveBank_inv (h : e.layer.Sound) (relief : Relief)
    (id_lt : id < e.layer.geometry.totalBanks) :
    Moves e (.relieveBank relief id) (relieveBank relief e id) := by
  have outcome := relieveBank_outcome relief e id
  generalize relieveBank relief e id = e' at outcome
  cases outcome with
  | notNeeded calm => exact .still (.refl e)
  | borne noted needy mild => exact .still (.of_noted noted)
  | givenUp noted needy dangerous =>
      exact .still ((Still.of_noted noted).trans (.disableBank _ id _))
  | swapped target needy home found =>
      rcases swapBanks_exchange h id_lt found with ⟨partner_lt, ne, q, c, swap, moved⟩
      refine .swapBanks id target q id_lt ne needy home found swap ?_ ?_ (swapBanks_moves swap)
      · rw [moved]
        rfl
      · rw [moved]
        exact marked_exchangeBanks h id_lt partner_lt swap c
  | migrated target needy found =>
      have rows := (RowsOnly.through_exchangeRow id (e.layer.mapping.logicalOf target)
        (e.layer.mapping.physicalOf id) target (e.rowsToMove id) e).mapping
      rcases swapBanks_exchange h id_lt found with ⟨_, ne, _⟩
      exact .migrateRows id target (e.rowsToMove id) id_lt ne needy found rows
        (marked_migrateRows h id_lt found _) (migrateRows_moves _ _ _ _ _ e)

/-! ### Vaults -/

theorem recoverVault_inv (h : e.layer.Sound) (v_lt : v < e.layer.geometry.vaults) :
    Moves e (.recoverVault v) (e.recoverVault v) := by
  unfold recoverVault
  split
  · rename_i ready
    simp only [vaultMayGoHome, Bool.and_eq_true, Bool.not_eq_true'] at ready
    rcases ready with ⟨⟨⟨away, free⟩, _⟩, _⟩
    unfold sendVaultHome
    dsimp only
    split
    · exact .still (.refl e)
    · rename_i occupant source
      split
      · exact .still (.refl e)
      · rename_i free'
        split
        · rename_i o q sent
          rcases Permutation.sendHome?_eq_some_iff.1 sent with ⟨_, occupied, swap⟩
          cases source.symm.trans occupied
          have ne := h.mapping.vaults.occupant_ne away occupied
          have w_lt := (h.mapping.vaults.lt_of_source? occupied).1
          refine .returnVault v occupant q v_lt ne.symm away
            ((h.mapping.vaults.agree occupant v).2 occupied) ⟨free, by simpa using free'⟩ swap ?_
            (marked_exchangeVaults h v_lt w_lt swap _) rfl
          exact (vaultMoved_mapping _ occupant).trans (vaultMoved_mapping _ v)
        · exact .still (.refl e)
  · exact .still (.refl e)

/-- A target for a vault's data is a cool vault at home. -/
theorem vaultTarget?_free (h : e.layer.Sound) (found : e.vaultTarget? v = some target) :
    e.layer.mapping.vaults.source? target = some target ∧ target ≠ v ∧
      e.layer.mapping.vaults.fixes target = true ∧ e.layer.vaultFrozen target = false ∧
      (e.layer.ledger.vaultTemperature target).below e.layer.settings.cool = true := by
  have eligible := (List.mem_filter.1 (Celsius.coolest?_mem found)).2
  simp only [vaultEligible, Bool.and_eq_true, decide_eq_true_iff, Option.any_eq_true,
    Bool.not_eq_true'] at eligible
  rcases eligible with ⟨⟨ne, cool⟩, owner, source, ⟨home, _⟩, free⟩
  -- The logical vault on the target is at home, so it is the target.
  have same : owner = target := by
    have there := (h.mapping.vaults.agree owner target).2 source
    exact Option.some.inj ((Permutation.fixes_iff.1 home).symm.trans there)
  subst same
  exact ⟨source, ne, home, free, cool⟩

theorem relieveVault_inv (h : e.layer.Sound) (v_lt : v < e.layer.geometry.vaults) :
    Moves e (.relieveVault v) (e.relieveVault v) := by
  unfold relieveVault
  split
  · rename_i needy
    cases found : e.vaultTarget? v with
    | none => exact .still ⟨rfl, rfl, rfl⟩
    | some target =>
        rcases vaultTarget?_free h found with ⟨source, ne, home', free', cool⟩
        simp only [vaultNeedsRelief, Bool.and_eq_true, Bool.not_eq_true'] at needy
        rcases needy with ⟨⟨⟨_, free⟩, home⟩, _⟩
        have w_lt := (h.mapping.vaults.lt_of_source? source).1
        rcases Permutation.exists_swap? h.mapping.vaults v_lt w_lt with ⟨q, swap⟩
        simp only [source, Option.getD_some, swapVaults, swap]
        refine .swapVaults v target q v_lt ne.symm ⟨home, home'⟩ ⟨free, free'⟩ cool swap ?_
          (marked_exchangeVaults h v_lt w_lt swap _) rfl
        exact (vaultMoved_mapping _ target).trans (vaultMoved_mapping _ v)
  · exact .still (.refl e)

/-- Every turn makes one move or none. -/
theorem take_moves (h : e.layer.Sound) (within : t.Within e.layer.geometry) :
    Moves e t (e.take t) := by
  cases t with
  | switchBank id => exact .still (.switchBank e id)
  | switchVault v => exact .still (.switchVault e v)
  | recoverBank id => exact recoverBank_inv h within
  | recoverVault v => exact recoverVault_inv h within
  | relieveVault v => exact relieveVault_inv h within
  | relieveBank relief id => exact relieveBank_inv h relief within
  | recoverRows => exact .returnRows (recoverRows_rowsOnly e)

end Epoch

/-! ## Mappings of a run -/

namespace Layer

variable {s : RelocationSettings} {g : Geometry} {l : Layer} {P : Mapping → Prop}

/-- Only epochs change the mapping. -/
theorem perform_mapping {op : Operation} (epoch : op ≠ .runEpoch) :
    (l.perform op).mapping = l.mapping := by
  cases op with
  | setTemperature p t =>
      rcases perform_setTemperature l p t with ⟨ledger, stored⟩
      rw [stored]
  | recordAccess row requests =>
      rcases perform_recordAccess l row requests with refused | ⟨ledger, recorded⟩
      · rw [refused]
      · rw [recorded]
        rfl
  | runEpoch => exact absurd rfl epoch
  | settle => rfl
  | resetCounts => rfl

section Keeps

variable (keep : ∀ (e : Epoch), ∀ t ∈ s.turns g, e.layer.Under s g → P e.layer.mapping →
  P (e.take t).layer.mapping)

include keep

/-- What all turns keep of the mapping holds at every stage of an epoch. -/
theorem stage_mapping (h : l.Under s g) (start : P l.mapping) (n : Nat) :
    P (l.stage n).mapping := by
  have member : ∀ t ∈ l.turns.take n, t ∈ s.turns g := fun t ht =>
    mem_turns h (List.mem_of_mem_take ht)
  exact Epoch.takeAll_keeps (P := fun l => P l.mapping)
    (fun t ht => RelocationSettings.turns_within (member t ht))
    (fun e t ht => keep e t (member t ht)) h.nextEpoch start

theorem perform_keeps (h : l.Under s g) (start : P l.mapping) (op : Operation) :
    P (l.perform op).mapping := by
  by_cases epoch : op = .runEpoch
  · rcases runEpoch_layer h.sound with ⟨c, ends⟩
    subst epoch
    rw [perform, ends]
    exact stage_mapping keep h start l.turns.length
  · rwa [perform_mapping epoch]

/-- What all turns keep of the mapping, and what holds of the identity, holds in every run. -/
theorem run_mapping (start : P (.identity g)) (ops : List Operation) :
    P ((ofSettings s g).run ops).mapping := by
  have chain : ∀ (l : Layer), l.Under s g → P l.mapping → P (l.run ops).mapping := by
    induction ops with
    | nil => exact fun _ _ holds => holds
    | cons op ops ih =>
        exact fun l under holds => ih _ (under.perform op) (perform_keeps keep under holds op)
  exact chain _ (ofSettings_under s g) start

end Keeps

end Layer

end StackedCache
