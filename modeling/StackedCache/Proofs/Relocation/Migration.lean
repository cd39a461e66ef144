import StackedCache.Proofs.Relocation.HotRows
import StackedCache.Proofs.Relocation.Outcome
import StackedCache.Proofs.Relocation.Safety
import StackedCache.Proofs.Relocation.Sweep

/-!
# Where migrated rows go

A migration exchanges rows of two physical banks, wherever the logical rows are at that time.  Both
banks are in their cooldown afterwards, so the rest of the epoch leaves their rows alone, and a row
of the hot bank ends where the row of its partner was.  That is the partner's cool bank only if the
partner's row was at home; a row that had been moved before comes back to its own hot bank.
-/

namespace StackedCache

/-! ## Exchanges of rows -/

namespace Mapping

variable {m : Mapping} {q : Permutation} {row x y : Nat}

/-- An exchange of one row of two physical banks, read as a redirection. -/
theorem redirect_insert (h : m.Sound) (x_lt : x < m.geometry.totalBanks)
    (y_lt : y < m.geometry.totalBanks) (hq : (m.rowPermutation row).swap? x y = some q)
    (other z : Nat) :
    ({ m with rows := m.rows.insert row q } : Mapping).redirect other z =
      if other = row then
        if z = y then m.redirect row x else if z = x then m.redirect row y else m.redirect row z
      else m.redirect other z := by
  by_cases same : other = row
  · subst same
    have inverse := h.rowPermutation_inverse other
    rcases inverse.exists_target? x_lt with ⟨a, ha⟩
    rcases inverse.exists_target? y_lt with ⟨b, hb⟩
    simp only [redirect_eq, rowPermutation_insert, Permutation.target?_swap? hq, if_true, ha, hb]
    split
    · rfl
    · split
      · rfl
      · rfl
  · rw [if_neg same]
    exact redirect_swapRow hq (.inl same)

end Mapping

namespace Epoch

open Layer Relation

variable {s : RelocationSettings} {g : Geometry} {e e' : Epoch} {id partner x y row : Nat}

/-- One exchange of a row of two different physical banks. -/
theorem exchangeRow_redirect (id partner row : Nat) (h : e.layer.Sound)
    (x_lt : x < e.layer.geometry.totalBanks)
    (y_lt : y < e.layer.geometry.totalBanks)
    (other z : Nat) :
    (exchangeRow id partner x y e row).layer.mapping.redirect other z =
      if other = row then
        if z = y then e.layer.mapping.redirect row x
        else if z = x then e.layer.mapping.redirect row y
        else e.layer.mapping.redirect row z
      else e.layer.mapping.redirect other z := by
  rcases Permutation.exists_swap? (h.mapping.rowPermutation_inverse row) x_lt y_lt with ⟨q, hq⟩
  simp only [exchangeRow, hq]
  exact Mapping.redirect_insert h.mapping x_lt y_lt hq other z

/-- Exchanges of different rows exchange just these rows. -/
theorem through_exchangeRow_redirect {rows : List Nat} (nodup : rows.Nodup) (h : e.layer.Sound)
    (x_lt : x < e.layer.geometry.totalBanks) (y_lt : y < e.layer.geometry.totalBanks)
    (owner : e.layer.mapping.logicalOf x = id) (other : e.layer.mapping.logicalOf y = partner)
    (row z : Nat) :
    (e.through rows (exchangeRow id partner x y)).layer.mapping.redirect row z =
      if row ∈ rows then
        if z = y then e.layer.mapping.redirect row x
        else if z = x then e.layer.mapping.redirect row y
        else e.layer.mapping.redirect row z
      else e.layer.mapping.redirect row z := by
  induction rows generalizing e with
  | nil => simp [through]
  | cons first rows ih =>
      rw [List.nodup_cons] at nodup
      have step := exchangeRow_redirect id partner first h x_lt y_lt
      rcases exchangeRow_change first h x_lt y_lt owner other with ⟨change, same⟩
      have geometry := (Change.rows change).frame.geometry
      have rest := ih nodup.2 ((Change.rows change).sound h) (geometry ▸ x_lt) (geometry ▸ y_lt)
        (by rwa [same]) (by rwa [same])
      refine rest.trans ?_
      simp only [step, List.mem_cons]
      by_cases heq : row = first
      · subst heq
        simp [nodup.1]
      · simp [heq]

/-- A migration exchanges the places of the migrated rows of two logical banks. -/
theorem migrateRows_physicalOfRow {target : Nat} {rows : List Nat} (nodup : rows.Nodup)
    (h : e.layer.Sound) (range : id < e.layer.geometry.totalBanks)
    (found : e.bankTarget? false (e.layer.mapping.physicalOf id) = some target) (row i : Nat) :
    let partner := e.layer.mapping.logicalOf target
    (e.migrateRows id partner (e.layer.mapping.physicalOf id) target
        rows).layer.mapping.physicalOfRow row i =
      if row ∈ rows then
        if i = partner then e.layer.mapping.physicalOfRow row id
        else if i = id then e.layer.mapping.physicalOfRow row partner
        else e.layer.mapping.physicalOfRow row i
      else e.layer.mapping.physicalOfRow row i := by
  intro partner
  have physical_lt := h.mapping.physicalOf_lt range
  have target_lt := (bankTarget?_range found physical_lt).1
  have same : (e.migrateRows id partner (e.layer.mapping.physicalOf id) target
      rows).layer.mapping.physicalOf = e.layer.mapping.physicalOf :=
    rows_physicalOf (migrateRows_change h range found rows)
  have redirected := through_exchangeRow_redirect nodup h physical_lt target_lt
    (h.mapping.logicalOf_physicalOf id) rfl row (e.layer.mapping.physicalOf i)
  -- Physical banks are told apart by their owners.
  have owner : ∀ a b, e.layer.mapping.physicalOf a = e.layer.mapping.physicalOf b ↔ a = b :=
    fun a b => ⟨h.mapping.physicalOf_injective, fun heq => heq ▸ rfl⟩
  have place : e.layer.mapping.physicalOf partner = target := h.mapping.physicalOf_logicalOf target
  have atTarget : ∀ a, e.layer.mapping.physicalOf a = target ↔ a = partner :=
    fun a => place ▸ owner a partner
  simp only [owner, atTarget] at redirected
  unfold Mapping.physicalOfRow
  rw [same, place]
  exact redirected

/-- A bank that needs relief is out of its cooldown. -/
theorem bankFrozen_of_needy (needy : e.bankNeedsRelief id = true) :
    e.layer.bankFrozen id = false := by
  simp only [bankNeedsRelief, Bool.and_eq_true, Bool.not_eq_true'] at needy
  exact needy.1.1.2

theorem rowsToMove_nodup (h : e.layer.RowsDistinct) (id : Nat) : (e.rowsToMove id).Nodup := by
  unfold rowsToMove
  cases hbank : e.layer.bank? id with
  | none => exact List.nodup_nil
  | some entry => exact HotRows.hottest_nodup (h id entry hbank) _

/-- A target is a cool bank, and its owner is out of its cooldown. -/
theorem bankTarget?_free {atHome : Bool} {hot target : Nat}
    (found : e.bankTarget? atHome hot = some target) :
    (e.layer.ledger.temperature target).below e.layer.settings.cool = true ∧
      e.layer.bankFrozen (e.layer.mapping.logicalOf target) = false := by
  have eligible := (List.mem_filter.1 (Celsius.coolest?_mem found)).2
  simp only [bankEligible, Bool.and_eq_true, Bool.not_eq_true'] at eligible
  exact ⟨eligible.1.1.1.2, eligible.1.2⟩

theorem through_exchangeRow_report (id partner x y : Nat) (rows : List Nat) (e : Epoch) :
    (e.through rows (exchangeRow id partner x y)).report = e.report := by
  induction rows generalizing e with
  | nil => rfl
  | cons row rows ih =>
      refine (ih (exchangeRow id partner x y e row)).trans ?_
      unfold exchangeRow
      dsimp only
      split <;> rfl

/-- What a migration does: two different banks, neither in its cooldown and one on a cool bank,
exchange the places of rows, and both are in their cooldown afterwards. -/
structure RowExchange (e : Epoch) (id partner : Nat) (e' : Epoch) : Prop where
  change : ReflTransGen RowChange e.layer e'.layer
  id_lt : id < e.layer.geometry.totalBanks
  partner_lt : partner < e.layer.geometry.totalBanks
  ne : id ≠ partner
  cool : (e.layer.temperatureOf partner).below e.layer.settings.cool = true
  free : e.layer.bankFrozen id = false ∧ e.layer.bankFrozen partner = false
  frozen : e'.layer.bankFrozen id = true ∧ e'.layer.bankFrozen partner = true
  places : ∀ row i, e'.layer.mapping.physicalOfRow row i =
    if row ∈ e.rowsToMove id then
      if i = partner then e.layer.mapping.physicalOfRow row id
      else if i = id then e.layer.mapping.physicalOfRow row partner
      else e.layer.mapping.physicalOfRow row i
    else e.layer.mapping.physicalOfRow row i
  report : e'.report.rowMigrations =
    e.report.rowMigrations ++ [⟨e.place id, e.place partner, e.rowsToMove id⟩]

theorem migrateRows_exchange {target : Nat} (h : e.layer.Sound) (distinct : e.layer.RowsDistinct)
    (range : id < e.layer.geometry.totalBanks) (needy : e.bankNeedsRelief id = true)
    (found : e.bankTarget? false (e.layer.mapping.physicalOf id) = some target) :
    RowExchange e id (e.layer.mapping.logicalOf target)
      (e.migrateRows id (e.layer.mapping.logicalOf target) (e.layer.mapping.physicalOf id) target
        (e.rowsToMove id)) := by
  have physical_lt := h.mapping.physicalOf_lt range
  rcases bankTarget?_range found physical_lt with ⟨target_lt, target_ne⟩
  rcases bankTarget?_free found with ⟨cool, free⟩
  have place := h.mapping.physicalOf_logicalOf target
  have exchanged := through_exchangeRow_change (e.rowsToMove id) h physical_lt target_lt
    (h.mapping.logicalOf_physicalOf id) rfl
  refine
    { change := migrateRows_change h range found _
      id_lt := range
      partner_lt := h.mapping.logicalOf_lt target_lt
      ne := ?_
      cool := by rwa [temperatureOf, place]
      free := ⟨bankFrozen_of_needy needy, free⟩
      frozen := ⟨migrateRows_frozen h range found _ (.inl rfl),
        migrateRows_frozen h range found _ (.inr rfl)⟩
      places := migrateRows_physicalOfRow (rowsToMove_nodup distinct id) h range found
      report := ?_ }
  · intro heq
    rw [heq, place] at target_ne
    exact target_ne rfl
  · -- The report names places, which the exchanges before it have not changed.
    have geometry := (Change.rows exchanged).frame.geometry
    have report := congrArg Report.rowMigrations (through_exchangeRow_report id
      (e.layer.mapping.logicalOf target) (e.layer.mapping.physicalOf id) target (e.rowsToMove id) e)
    unfold Epoch.place
    rw [← geometry, ← report]
    rfl

/-! ## The pass that migrates rows -/

/-- The rows of a migration have changed place since `start`, and both banks stay as they are. -/
structure Exchanged (start now : Layer) (move : RowMigration) : Prop where
  source : start.geometry.holds move.source = true
  target : start.geometry.holds move.target = true
  frozen : now.bankFrozen (start.geometry.bankId move.source) = true ∧
    now.bankFrozen (start.geometry.bankId move.target) = true
  cool : (start.temperatureOf (start.geometry.bankId move.target)).below start.settings.cool = true
  there : ∀ row ∈ move.rows, now.mapping.physicalOfRow row (start.geometry.bankId move.source) =
    start.mapping.physicalOfRow row (start.geometry.bankId move.target)
  back : ∀ row ∈ move.rows, now.mapping.physicalOfRow row (start.geometry.bankId move.target) =
    start.mapping.physicalOfRow row (start.geometry.bankId move.source)

/-- The banks of a migration are in their cooldown, so only others take part later. -/
theorem Exchanged.later {start now later : Layer} {move : RowMigration}
    (h : Exchanged start now move)
    (stays : ∀ {id}, now.bankFrozen id = true → later.bankFrozen id = true)
    (places : ∀ id, now.bankFrozen id = true → ∀ row,
      later.mapping.physicalOfRow row id = now.mapping.physicalOfRow row id) :
    Exchanged start later move where
  source := h.source
  target := h.target
  frozen := h.frozen.imp stays stays
  cool := h.cool
  there := fun row hrow => (places _ h.frozen.1 row).trans (h.there row hrow)
  back := fun row hrow => (places _ h.frozen.2 row).trans (h.back row hrow)

/-- The epoch has migrated rows since `start`, and has reported them all. -/
structure Migrates (start : Layer) (e : Epoch) : Prop where
  sound : e.layer.Sound
  frame : SameFrame start e.layer
  rows : e.layer.RowsDistinct
  physical : e.layer.mapping.physicalOf = start.mapping.physicalOf
  /-- The rows of banks that may still take part are where they were. -/
  untouched : ∀ id, e.layer.bankFrozen id = false → ∀ row,
    e.layer.mapping.physicalOfRow row id = start.mapping.physicalOfRow row id
  exchanged : ∀ move ∈ e.report.rowMigrations, Exchanged start e.layer move

theorem Migrates.start (sound : e.layer.Sound) (rows : e.layer.RowsDistinct)
    (nothing : e.report.rowMigrations = []) : Migrates e.layer e where
  sound := sound
  frame := .rfl
  rows := rows
  physical := rfl
  untouched := fun _ _ _ => rfl
  exchanged := by
    intro move hmove
    rw [nothing] at hmove
    cases hmove

/-- What moves no data and migrates nothing keeps all that is reported true. -/
theorem Migrates.of_still {start : Layer} (h : Migrates start e) (change : Change e.layer e'.layer)
    (mapping : e'.layer.mapping = e.layer.mapping)
    (report : e'.report.rowMigrations = e.report.rowMigrations) : Migrates start e' where
  sound := change.sound h.sound
  frame := h.frame.trans change.frame
  rows := h.rows.ages change.ages
  physical := mapping ▸ h.physical
  untouched := by
    intro id free row
    rw [mapping]
    exact h.untouched id (change.ages.bankFree change.frame free) row
  exchanged := by
    intro move hmove
    have before := h.exchanged move (report ▸ hmove)
    exact before.later (change.ages.bankFrozen change.frame) fun _ _ _ => by rw [mapping]

/-- Banks that take part for the first time exchange rows that have not moved since `start`. -/
theorem Migrates.exchanged_now {start : Layer} {partner : Nat} (h : Migrates start e)
    (step : RowExchange e id partner e') :
    Exchanged start e'.layer ⟨e.place id, e.place partner, e.rowsToMove id⟩ := by
  have geometry : start.geometry = e.layer.geometry := h.frame.geometry.symm
  have number : ∀ i, start.geometry.bankId (e.place i) = i := by
    intro i
    rw [geometry]
    exact e.layer.geometry.bankId_bankAt i
  have held : ∀ {i}, i < e.layer.geometry.totalBanks → start.geometry.holds (e.place i) = true := by
    intro i hi
    rw [geometry]
    exact Geometry.holds_bankAt hi
  refine
    { source := held step.id_lt
      target := held step.partner_lt
      frozen := ?_
      cool := ?_
      there := fun row hrow => ?_
      back := fun row hrow => ?_ }
  · rw [number, number]
    exact step.frozen
  · have cool := step.cool
    rwa [number, ← h.frame.settings, temperatureOf, ← h.frame.ledger, ← h.physical]
  · rw [number, number, step.places, if_pos hrow, if_neg step.ne, if_pos rfl]
    exact h.untouched partner step.free.2 row
  · rw [number, number, step.places, if_pos hrow, if_pos rfl]
    exact h.untouched id step.free.1 row

/-- The rows of a bank that is free before or after the exchange are moved only if it takes part. -/
theorem RowExchange.others {partner i : Nat} (step : RowExchange e id partner e')
    (apart : e.layer.bankFrozen i = true ∨ e'.layer.bankFrozen i = false) (row : Nat) :
    e'.layer.mapping.physicalOfRow row i = e.layer.mapping.physicalOfRow row i := by
  -- The two that take part are free before and frozen afterwards.
  have not_id : i ≠ id := by
    rintro rfl
    simp [step.free.1, step.frozen.1] at apart
  have not_partner : i ≠ partner := by
    rintro rfl
    simp [step.free.2, step.frozen.2] at apart
  rw [step.places row i, if_neg not_id, if_neg not_partner, ite_self]

/-- A migration meets two banks that have not taken part before, and leaves them alone from then
on. -/
theorem Migrates.exchange {start : Layer} {partner : Nat} (h : Migrates start e)
    (step : RowExchange e id partner e') : Migrates start e' := by
  have change := Change.rows step.change
  refine
    { sound := change.sound h.sound
      frame := h.frame.trans change.frame
      rows := h.rows.ages change.ages
      physical := (rows_physicalOf step.change).trans h.physical
      untouched := ?_
      exchanged := ?_ }
  · intro i free row
    rw [step.others (.inr free) row]
    exact h.untouched i (change.ages.bankFree change.frame free) row
  · intro move hmove
    rw [step.report] at hmove
    rcases List.mem_append.1 hmove with before | now
    · refine (h.exchanged move before).later (change.ages.bankFrozen change.frame) ?_
      exact fun i frozen row => step.others (.inl frozen) row
    · cases List.mem_singleton.1 now
      exact h.exchanged_now step

theorem Migrates.relieveBank {start : Layer} (h : Migrates start e)
    (range : id < e.layer.geometry.totalBanks) :
    Migrates start (Epoch.relieveBank .migrating e id) := by
  have change : Change e.layer (Epoch.relieveBank .migrating e id).layer :=
    take_change (t := .relieveBank .migrating id) h.sound range
  have outcome := relieveBank_outcome .migrating e id
  generalize Epoch.relieveBank .migrating e id = e' at outcome change
  have failed : ∀ {e₁ : Epoch}, e₁ = e ∨ e₁ = e.failBank id →
      e₁.report.rowMigrations = e.report.rowMigrations := by
    rintro e₁ (rfl | rfl) <;> rfl
  cases outcome with
  | notNeeded calm => exact h
  | borne noted needy mild =>
      exact h.of_still change (congrArg Layer.mapping (layer_of_noted noted)) (failed noted)
  | @givenUp _ e₁ noted needy dangerous =>
      rcases disableBank_layer e₁ id (e.layer.mapping.displaced id) with ⟨c, disabled⟩
      refine h.of_still change ?_ ?_
      · rw [disabled, layer_of_noted noted]
        rfl
      · rw [disableBank_report]
        exact failed noted
  | migrated target needy found =>
      exact h.exchange (migrateRows_exchange h.sound h.rows range needy found)

theorem Migrates.relieveBanks {start : Layer} (h : Migrates start e) :
    Migrates start (e.relieveBanks .migrating) := by
  have range : ∀ id ∈ e.layer.geometry.bankIds, id < start.geometry.totalBanks := by
    intro id hid
    rw [← h.frame.geometry]
    exact Geometry.mem_bankIds.1 hid
  unfold Epoch.relieveBanks throughBanks
  generalize e.layer.geometry.bankIds = ids at range
  induction ids generalizing e with
  | nil => exact h
  | cons id ids ih =>
      have first := h.relieveBank (h.frame.geometry ▸ range id List.mem_cons_self)
      exact ih first fun i hi => range i (List.mem_cons_of_mem _ hi)

theorem Migrates.countFailures {start : Layer} (h : Migrates start e) :
    Migrates start e.countFailures := by
  refine h.of_still (.rows (.single ?_)) rfl rfl
  exact .counts _

/-! ## Before relief -/

theorem recoverBanks_rowMigrations (e : Epoch) :
    e.recoverBanks.report.rowMigrations = e.report.rowMigrations := by
  unfold recoverBanks throughBanks
  generalize e.layer.geometry.bankIds = ids
  induction ids generalizing e with
  | nil => rfl
  | cons id ids ih =>
      rcases recoverBank_report e id with ⟨banks, same⟩
      refine (ih (e.recoverBank id)).trans ?_
      rw [same]

theorem returnRow_report (row home : Nat) (r : RowReturn) :
    (returnRow row r home).epoch.report = r.epoch.report := by
  rcases returnRow_cases r row home with same | ⟨_, _, _, _, _, _, moved⟩
  · rw [same]
  · rw [moved]

/-- The return of rows reports nothing before it is over. -/
theorem returnRowsToAll_report (rows : List Nat) (r : RowReturn) :
    (rows.foldl returnRowToAll r).epoch.report = r.epoch.report := by
  have toAll : ∀ (row : Nat) (homes : List Nat) (r : RowReturn),
      (homes.foldl (returnRow row) r).epoch.report = r.epoch.report := by
    intro row homes
    induction homes with
    | nil => exact fun r => rfl
    | cons home homes ih => exact fun r => (ih _).trans (returnRow_report row home r)
  induction rows generalizing r with
  | nil => rfl
  | cons row rows ih =>
      refine (ih _).trans ?_
      unfold returnRowToAll
      split
      · rfl
      · exact toAll row _ r

theorem recoverRows_rowMigrations (e : Epoch) :
    e.recoverRows.report.rowMigrations = e.report.rowMigrations := by
  have same := returnRowsToAll_report e.layer.mapping.rows.keys { epoch := e }
  have kept := congrArg Report.rowMigrations same
  exact kept

end Epoch

namespace Layer

open Epoch Relation

variable {s : RelocationSettings} {g : Geometry} {l : Layer}

/-- The row is on a cool physical bank. -/
def rowCool (l : Layer) (row : Location) : Bool :=
  match l.physicalLocation row with
  | .ok q => (l.temperature? q.place).any (·.below l.settings.cool)
  | .error _ => false

/-- The layer of the next epoch when its relief starts: what has cooled down is back. -/
def recovered (l : Layer) : Layer := l.nextEpoch.recoverBanks.recoverRows.layer

theorem recovered_eq (l : Layer) :
    l.recovered =
      (l.nextEpoch.takeAll (l.geometry.bankIds.map .recoverBank ++ [.recoverRows])).layer := by
  simp only [takeAll, List.foldl_append, List.foldl_map]
  rfl

theorem recovered_changes (h : l.Sound) :
    ReflTransGen Change l.nextEpoch.layer l.recovered := by
  rw [recovered_eq]
  refine takeAll_changes (nextEpoch_sound h) fun t ht => ?_
  rcases List.mem_append.1 ht with recovers | rows
  · rcases List.mem_map.1 recovers with ⟨id, hid, rfl⟩
    exact Geometry.mem_bankIds.1 hid
  · cases List.mem_singleton.1 rows
    trivial

/-- An epoch is a migration since its relief started. -/
theorem runEpoch_migrates_since (h : l.Under s g) (distinct : l.RowsDistinct)
    (hybrid : s.policy = .hybrid) (enabled : s.enabled = true) :
    ∃ e : Epoch, Migrates l.recovered e ∧ l.runEpoch = (e.report, e.layer) := by
  have nextDistinct : l.nextEpoch.layer.RowsDistinct := distinct
  have changes := recovered_changes h.sound
  have nothing : l.nextEpoch.recoverBanks.recoverRows.report.rowMigrations = [] := by
    rw [recoverRows_rowMigrations, recoverBanks_rowMigrations]
    rfl
  have start := Migrates.start ((nextEpoch_sound h.sound).changes changes)
    (nextDistinct.ages (changes_ages changes)) nothing
  have ends : l.runEpoch =
      ((l.nextEpoch.recoverBanks.recoverRows.relieveBanks .migrating).countFailures.report,
        (l.nextEpoch.recoverBanks.recoverRows.relieveBanks .migrating).countFailures.layer) := by
    simp only [runEpoch, h.settings, enabled, if_true, apply, hybrid]
  exact ⟨_, start.relieveBanks.countFailures, ends⟩

theorem runEpoch_rowMigrations_off (h : l.Under s g) (off : s.enabled = false) :
    l.runEpoch.1.rowMigrations = [] := by
  simp only [runEpoch, h.settings, off, Bool.false_eq_true, if_false]
  rfl

theorem physicalLocation_congr {l l' : Layer} {p q : BankPlace} {row : Nat}
    (hp : l.geometry.holds p = true) (hq : l'.geometry.holds q = true)
    (geometry : l'.geometry = l.geometry)
    (same : l'.mapping.physicalOfRow row (l.geometry.bankId q) =
      l.mapping.physicalOfRow row (l.geometry.bankId p)) :
    l'.physicalLocation ⟨q.vault, q.bank, row⟩ = l.physicalLocation ⟨p.vault, p.bank, row⟩ := by
  have left := physicalLocation_of_holds (r := ⟨q.vault, q.bank, row⟩) hq
  have right := physicalLocation_of_holds (r := ⟨p.vault, p.bank, row⟩) hp
  rw [geometry] at left
  simp only [Location.place, same] at left right
  rw [left, right]

/-- What a migration has exchanged, read as places of rows. -/
theorem locations_of_exchanged {start now : Layer} {move : RowMigration} {row : Nat}
    (soundStart : start.Sound) (h : Exchanged start now move) (frame : SameFrame start now)
    (hrow : row ∈ move.rows) :
    let source : Location := ⟨move.source.vault, move.source.bank, row⟩
    let target : Location := ⟨move.target.vault, move.target.bank, row⟩
    now.physicalLocation source = start.physicalLocation target ∧
      now.physicalLocation target = start.physicalLocation source ∧
      now.rowCool source = start.rowCool target ∧
      ((start.physicalLocation target).map Location.place = start.physicalPlace move.target →
        now.rowCool source = true) := by
  intro source target
  have there : now.physicalLocation source = start.physicalLocation target :=
    physicalLocation_congr h.target (frame.geometry ▸ h.source) frame.geometry (h.there row hrow)
  have back : now.physicalLocation target = start.physicalLocation source :=
    physicalLocation_congr h.source (frame.geometry ▸ h.target) frame.geometry (h.back row hrow)
  have readings : ∀ p, now.temperature? p = start.temperature? p := by
    intro p
    rw [temperature?, temperature?, frame.geometry, frame.ledger]
  have cool : now.rowCool source = start.rowCool target := by
    simp only [rowCool, there, readings, frame.settings]
  refine ⟨there, back, cool, fun home => ?_⟩
  rw [cool]
  have place : start.physicalPlace move.target =
      .ok (start.geometry.bankAt (start.mapping.physicalOf (start.geometry.bankId move.target))) :=
    physicalPlace_of_holds h.target
  cases located : start.physicalLocation target with
  | error fault =>
      rw [located, place] at home
      cases home
  | ok q =>
      rw [located, place] at home
      have home : q.place = _ := Except.ok.inj home
      have reading : start.temperature? q.place =
          some (start.temperatureOf (start.geometry.bankId move.target)) := by
        have lt : _ < start.geometry.totalBanks :=
          soundStart.mapping.physicalOf_lt (bankId_lt h.target)
        rw [home, temperature?, if_pos (Geometry.holds_bankAt lt), Geometry.bankId_bankAt]
        rfl
      simp only [rowCool, located, reading, Option.any_some, h.cool]

/-- The reported rows of a hot bank and of its partner change place, wherever they were.  So a row
of the hot bank ends on a cool bank exactly if the partner's row was on one when relief started, and
that is so if the partner's row was at home. -/
theorem runEpoch_migrates (s : RelocationSettings) (g : Geometry) (ops : List Operation)
    (hybrid : s.policy = .hybrid) :
    let l := (ofSettings s g).run ops
    let before := l.recovered
    let after := l.runEpoch.2
    ∀ move ∈ l.runEpoch.1.rowMigrations, ∀ row ∈ move.rows,
      let source : Location := ⟨move.source.vault, move.source.bank, row⟩
      let target : Location := ⟨move.target.vault, move.target.bank, row⟩
      after.physicalLocation source = before.physicalLocation target ∧
        after.physicalLocation target = before.physicalLocation source ∧
        after.rowCool source = before.rowCool target ∧
        ((before.physicalLocation target).map Location.place = before.physicalPlace move.target →
          after.rowCool source = true) := by
  intro l before after move hmove row hrow source target
  have under : l.Under s g := (ofSettings_under s g).run ops
  cases enabled : s.enabled with
  | false =>
      rw [runEpoch_rowMigrations_off under enabled] at hmove
      cases hmove
  | true =>
      rcases runEpoch_migrates_since under (run_rowsDistinct s g ops) hybrid enabled with
        ⟨e, migrates, ends⟩
      have after_eq : after = e.layer := congrArg Prod.snd ends
      rw [ends] at hmove
      rw [after_eq]
      have sound : before.Sound :=
        (nextEpoch_sound under.sound).changes (recovered_changes under.sound)
      exact locations_of_exchanged sound (migrates.exchanged move hmove) migrates.frame hrow

/-- A row that is migrated for the first time arrives on the cool bank. -/
theorem runEpoch_migrates_first :
    let s := Settings.twoBanks .hybrid
    let l := (ofSettings s.relocation (.ofSettings s.stack)).run
      [.recordAccess ⟨0, 0, 2⟩ 1, .setTemperature ⟨0, 0⟩ ⟨90.0⟩]
    s.relocation.policy = .hybrid ∧ ⟨⟨0, 0⟩, ⟨0, 1⟩, [2]⟩ ∈ l.runEpoch.1.rowMigrations ∧
      l.runEpoch.2.physicalLocation ⟨0, 0, 2⟩ = l.recovered.physicalLocation ⟨0, 1, 2⟩ ∧
      l.runEpoch.2.rowCool ⟨0, 0, 2⟩ = true := by
  intro s l
  have reported : ⟨⟨0, 0⟩, ⟨0, 1⟩, [2]⟩ ∈ l.runEpoch.1.rowMigrations := by decide +kernel
  have exchanged := runEpoch_migrates s.relocation (.ofSettings s.stack)
    [.recordAccess ⟨0, 0, 2⟩ 1, .setTemperature ⟨0, 0⟩ ⟨90.0⟩] rfl _ reported 2
    (List.mem_singleton_self 2)
  have cool : l.recovered.rowCool ⟨0, 1, 2⟩ = true := by decide +kernel
  exact ⟨rfl, reported, exchanged.1, exchanged.2.2.1.trans cool⟩

/-- A row that is migrated again, while its bank is still hot, returns to that bank. -/
theorem second_migration_returns :
    let s : Settings :=
      { Settings.twoBanks .hybrid with relocation := { policy := .hybrid, cooldownEpochs := 0 } }
    let l := (ofSettings s.relocation (.ofSettings s.stack)).run
      [.recordAccess ⟨0, 0, 2⟩ 1, .setTemperature ⟨0, 0⟩ ⟨90.0⟩, .runEpoch]
    s.check = .ok () ∧ s.relocation.policy = .hybrid ∧
      l.runEpoch.1.rowMigrations = [⟨⟨0, 0⟩, ⟨0, 1⟩, [2]⟩] ∧
      l.runEpoch.2.mapping.physicalOfRow 2 0 = 0 ∧ l.runEpoch.2.rowCool ⟨0, 0, 2⟩ = false := by
  decide +kernel

end Layer

end StackedCache
