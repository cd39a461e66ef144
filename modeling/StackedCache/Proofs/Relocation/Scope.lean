import StackedCache.Proofs.Relocation.Idle
import StackedCache.Proofs.Relocation.Moves

/-!
# The scope of a policy

Which turns an epoch has is a matter of the policy: `RelocationSettings.Permits`.  A policy that has
no turns for a kind of move never makes it, so the part of the mapping that only such moves change
is the identity in every run.  Without moves between vaults, every row stays in its logical vault,
through the search for targets, through cycles of rows and through returns.
-/

namespace StackedCache

/-! ## Turns of a policy -/

namespace RelocationSettings

variable {s : RelocationSettings} {g : Geometry}

/-- The turns that a policy may have. -/
inductive Permits (s : RelocationSettings) : Turn → Prop where
  | switchBank (id : Nat) (policy : s.policy = .disable) : Permits s (.switchBank id)
  | switchVault (v : Nat) (policy : s.policy = .vaultDisable) : Permits s (.switchVault v)
  | recoverBank (id : Nat) (policy : s.policy = .swap ∨ s.policy = .hybrid) :
      Permits s (.recoverBank id)
  | recoverVault (v : Nat) (policy : s.policy = .swap) (scope : s.interVault = true) :
      Permits s (.recoverVault v)
  | relieveVault (v : Nat) (policy : s.policy = .swap) (scope : s.interVault = true) :
      Permits s (.relieveVault v)
  | swapBank (id : Nat) (policy : s.policy = .swap) : Permits s (.relieveBank .swapping id)
  | migrateRows (id : Nat) (policy : s.policy = .hybrid) : Permits s (.relieveBank .migrating id)
  | recoverRows (policy : s.policy = .hybrid) : Permits s .recoverRows

/-- An epoch has no other turns than those of its policy. -/
theorem permits_of_mem {t : Turn} (member : t ∈ s.turns g) : s.Permits t := by
  rcases List.mem_flatMap.1 member with ⟨p, hp, ht⟩
  unfold passes at hp
  cases policy : s.policy with
  | disable =>
      rw [policy] at hp
      cases List.mem_singleton.1 hp
      rcases List.mem_map.1 ht with ⟨id, _, rfl⟩
      exact .switchBank id policy
  | vaultDisable =>
      rw [policy] at hp
      cases List.mem_singleton.1 hp
      rcases List.mem_map.1 ht with ⟨v, _, rfl⟩
      exact .switchVault v policy
  | swap =>
      simp only [policy, List.mem_append, List.mem_singleton] at hp
      rcases hp with (rfl | hp) | rfl
      · rcases List.mem_map.1 ht with ⟨id, _, rfl⟩
        exact .recoverBank id (.inl policy)
      · split at hp
        · rename_i scope
          simp only [List.mem_cons, List.not_mem_nil, or_false] at hp
          rcases hp with rfl | rfl
          · rcases List.mem_map.1 ht with ⟨v, _, rfl⟩
            exact .recoverVault v policy scope
          · rcases List.mem_map.1 ht with ⟨v, _, rfl⟩
            exact .relieveVault v policy scope
        · cases hp
      · rcases List.mem_map.1 ht with ⟨id, _, rfl⟩
        exact .swapBank id policy
  | hybrid =>
      simp only [policy, List.mem_cons, List.not_mem_nil, or_false] at hp
      rcases hp with rfl | rfl | rfl
      · rcases List.mem_map.1 ht with ⟨id, _, rfl⟩
        exact .recoverBank id (.inr policy)
      · cases List.mem_singleton.1 ht
        exact .recoverRows policy
      · rcases List.mem_map.1 ht with ⟨id, _, rfl⟩
        exact .migrateRows id policy

end RelocationSettings

/-! ## Permutations within classes -/

namespace Permutation

variable {p q : Permutation} {f : Nat → Nat} {n i j : Nat}

/-- The permutation leaves every index in its class. -/
def Keeps (p : Permutation) (f : Nat → Nat) : Prop := ∀ i j, p.target? i = some j → f j = f i

theorem identity_keeps (n : Nat) (f : Nat → Nat) : (identity n).Keeps f := by
  intro i j there
  have i_lt := ((identity_inverse n).lt_of_target? there).1
  rw [identity_target? i_lt] at there
  cases there
  rfl

/-- An exchange of two indices of one class keeps all classes. -/
theorem Keeps.swap? (h : p.Keeps f) (same : f i = f j) (swap : p.swap? i j = some q) :
    q.Keeps f := by
  intro k m there
  rw [target?_swap? swap] at there
  split at there
  · rename_i at_j
    rw [at_j, h i m there, same]
  · split at there
    · rename_i at_i
      rw [at_i, h j m there, same]
    · exact h k m there

/-- An index in the place of another one is of its class, so sending home keeps all classes. -/
theorem Keeps.swap?_occupant (h : p.Keeps f) (there : p.target? j = some i)
    (swap : p.swap? i j = some q) : q.Keeps f :=
  h.swap? (h j i there) swap

theorem Keeps.sendHome? (h : p.Keeps f) (inverse : p.Inverse n) {o : Nat}
    (sent : p.sendHome? i = some (o, q)) : q.Keeps f := by
  rcases sendHome?_eq_some_iff.1 sent with ⟨_, occupied, swap⟩
  exact h.swap?_occupant ((inverse.agree o i).2 occupied) swap

theorem Keeps.target (h : p.Keeps f) (i : Nat) : f ((p.target? i).getD i) = f i := by
  cases there : p.target? i with
  | none => rfl
  | some j => exact h i j there

end Permutation

/-! ## Mappings within vaults -/

namespace Mapping

variable {m : Mapping} {q : Permutation} {id row : Nat}

/-- Redirected rows stay in their physical vaults. -/
def RowsKeep (m : Mapping) : Prop := ∀ entry ∈ m.rows, entry.2.Keeps m.geometry.vaultOf

/-- Vaults are at home, and banks and redirected rows stay in their vaults. -/
structure WithinVaults (m : Mapping) : Prop where
  vaults : m.vaults = .identity m.geometry.vaults
  banks : m.banks.Keeps m.geometry.vaultOf
  rows : m.RowsKeep

theorem RowsKeep.rowPermutation (h : m.RowsKeep) (row : Nat) :
    (m.rowPermutation row).Keeps m.geometry.vaultOf := by
  unfold Mapping.rowPermutation
  cases found : m.rows.find? row with
  | none => exact Permutation.identity_keeps _ _
  | some p => exact h _ (Table.mem_of_find? found)

theorem RowsKeep.insert (h : m.RowsKeep) (hq : q.Keeps m.geometry.vaultOf) :
    RowsKeep { m with rows := m.rows.insert row q } := by
  intro entry member
  rcases Table.mem_of_mem_insert member with rfl | member
  · exact hq
  · exact h entry member

/-- With all vaults at home, a bank is its own slot. -/
theorem slotOf_of_identity (vaults : m.vaults = .identity m.geometry.vaults)
    (id_lt : id < m.geometry.totalBanks) : m.slotOf id = id := by
  have home : m.vaults.target? (m.geometry.vaultOf id) = some (m.geometry.vaultOf id) := by
    rw [vaults]
    exact Permutation.identity_target? (Geometry.vaultOf_lt id_lt)
  have same : m.vaults.target? (m.geometry.bankAt id).vault = some (m.geometry.bankAt id).vault :=
    home
  rw [slotOf, same]
  exact m.geometry.bankId_bankAt id

/-- With everything at home, a bank is its own physical bank. -/
theorem physicalOf_identity {g : Geometry} (id_lt : id < g.totalBanks) :
    (identity g).physicalOf id = id := by
  have home : (identity g).banks.target? id = some id := Permutation.identity_target? id_lt
  rw [physicalOf, slotOf_of_identity rfl id_lt, home]
  rfl

theorem WithinVaults.physicalOfRow (h : m.WithinVaults) (id_lt : id < m.geometry.totalBanks)
    (row : Nat) : m.geometry.vaultOf (m.physicalOfRow row id) = m.geometry.vaultOf id := by
  calc
    m.geometry.vaultOf (m.physicalOfRow row id)
        = m.geometry.vaultOf (m.physicalOf id) := by
          rw [Mapping.physicalOfRow, redirect_eq]
          exact (h.rows.rowPermutation row).target _
    _ = m.geometry.vaultOf (m.slotOf id) := h.banks.target _
    _ = m.geometry.vaultOf id := by rw [slotOf_of_identity h.vaults id_lt]

theorem identity_withinVaults (g : Geometry) : (identity g).WithinVaults where
  vaults := rfl
  banks := Permutation.identity_keeps _ _
  rows := fun _ member => by cases member

end Mapping

/-! ## Turns within vaults -/

namespace Epoch

open Layer Relation

variable {s : RelocationSettings} {g : Geometry} {e e' : Epoch} {t : Turn} {id target x y : Nat}

theorem exchangeRow_rowsKeep (h : e.layer.mapping.RowsKeep)
    (same : e.layer.geometry.vaultOf x = e.layer.geometry.vaultOf y) (id other row : Nat) :
    (exchangeRow id other x y e row).layer.mapping.RowsKeep := by
  have known := h.rowPermutation row
  unfold exchangeRow
  dsimp only
  split
  · exact h.insert known
  · rename_i q swap
    exact h.insert (known.swap? same swap)

theorem through_exchangeRow_rowsKeep (h : e.layer.mapping.RowsKeep)
    (same : e.layer.geometry.vaultOf x = e.layer.geometry.vaultOf y) (id other : Nat)
    (rows : List Nat) : (e.through rows (exchangeRow id other x y)).layer.mapping.RowsKeep := by
  induction rows generalizing e with
  | nil => exact h
  | cons row rows ih =>
      -- Rows are exchanged within one geometry.
      rcases (RowsOnly.exchangeRow id other x y e row).mapping with ⟨_, mapping⟩
      refine ih (exchangeRow_rowsKeep h same id other row) ?_
      rw [geometry, mapping]
      exact same

theorem returnRow_rowsKeep {r : RowReturn} (sound : r.epoch.layer.Sound)
    (h : r.epoch.layer.mapping.RowsKeep) (row home : Nat) :
    (returnRow row r home).epoch.layer.mapping.RowsKeep := by
  rcases returnRow_cases r row home with same | ⟨move, back, c, _, _, sent, moved⟩
  · rw [same]
    exact h
  · have inverse := sound.mapping.rowPermutation_inverse row
    have kept := (h.rowPermutation row).sendHome? inverse sent
    rw [moved]
    exact h.insert kept

theorem RowStep.rowsKeep (sound : e.layer.Sound) (h : e.layer.mapping.RowsKeep)
    (step : RowStep e e') : e'.layer.mapping.RowsKeep := by
  cases step with
  | returnRow row home owners => exact returnRow_rowsKeep (r := ⟨e, owners⟩) sound h row home
  | dropIdentities => exact fun entry member => h entry (List.mem_filter.1 member).1
  | report f => exact h

theorem recoverRows_rowsKeep (sound : e.layer.Sound) (h : e.layer.mapping.RowsKeep) :
    e.recoverRows.layer.mapping.RowsKeep := by
  have chain : ∀ {e'}, ReflTransGen RowStep e e' →
      e'.layer.Sound ∧ e'.layer.mapping.RowsKeep := by
    intro e' steps
    induction steps with
    | refl => exact ⟨sound, h⟩
    | tail _ step ih =>
        exact ⟨(Change.rows (RowStep.change ih.1 step)).sound ih.1, RowStep.rowsKeep ih.1 ih.2 step⟩
  exact (chain (recoverRows_steps e)).2

/-- Without moves between vaults, a target is in the vault of the hot bank. -/
theorem vaultOf_target {atHome : Bool} {hot : Nat} (scope : e.layer.settings.interVault = false)
    (hot_lt : hot < e.layer.geometry.totalBanks) (found : e.bankTarget? atHome hot = some target) :
    e.layer.geometry.vaultOf target = e.layer.geometry.vaultOf hot := by
  have member := (List.mem_filter.1 (Celsius.coolest?_mem found)).1
  have target_lt := (bankTarget?_range found hot_lt).1
  rw [Epoch.scope, scope, if_neg Bool.false_ne_true] at member
  exact (Geometry.mem_bankIdsOf target_lt).1 member

theorem relieveBank_rowsKeep (sound : e.layer.Sound) (h : e.layer.mapping.RowsKeep)
    (scope : e.layer.settings.interVault = false) (id_lt : id < e.layer.geometry.totalBanks) :
    (relieveBank .migrating e id).layer.mapping.RowsKeep := by
  have outcome := relieveBank_outcome .migrating e id
  generalize relieveBank .migrating e id = e' at outcome
  cases outcome with
  | notNeeded calm => exact h
  | borne noted needy mild => rwa [layer_of_noted noted]
  | givenUp noted needy dangerous =>
      rcases disableBank_layer _ id (e.layer.mapping.displaced id) with ⟨c, disabled⟩
      rw [disabled, layer_of_noted noted]
      exact h
  | migrated target needy found =>
      have same := vaultOf_target scope (sound.mapping.physicalOf_lt id_lt) found
      exact through_exchangeRow_rowsKeep h same.symm id _ (e.rowsToMove id)

/-- Every turn keeps redirected rows in their vaults. -/
theorem take_rowsKeep (sound : e.layer.Sound) (within : t.Within e.layer.geometry)
    (scope : e.layer.settings.interVault = false) (h : e.layer.mapping.RowsKeep) :
    (e.take t).layer.mapping.RowsKeep := by
  have geometry : (e.take t).layer.mapping.geometry = e.layer.mapping.geometry :=
    (take_change sound within).frame.geometry
  have whole : t.Whole → (e.take t).layer.mapping.RowsKeep := by
    intro whole entry member
    rw [take_rows whole] at member
    rw [geometry]
    exact h entry member
  cases t with
  | recoverRows => exact recoverRows_rowsKeep sound h
  | relieveBank relief id =>
      cases relief with
      | migrating => exact relieveBank_rowsKeep sound h scope within
      | swapping => exact whole trivial
  | switchBank | switchVault | recoverBank | recoverVault | relieveVault => exact whole trivial

/-- The slots of a hot bank and of its partner at home are in one vault. -/
theorem vaultOf_slots (sound : e.layer.Sound) (scope : e.layer.settings.interVault = false)
    (id_lt : id < e.layer.geometry.totalBanks) (home : e.layer.mapping.displaced id = false)
    (found : e.bankTarget? true (e.layer.mapping.physicalOf id) = some target) :
    e.layer.geometry.vaultOf (e.layer.mapping.slotOf id) =
      e.layer.geometry.vaultOf (e.layer.mapping.slotOf (e.layer.mapping.logicalOf target)) := by
  -- A bank at home is on the physical bank of its slot.
  have at_home : ∀ i, e.layer.mapping.banks.fixes (e.layer.mapping.slotOf i) = true →
      e.layer.mapping.physicalOf i = e.layer.mapping.slotOf i := by
    intro i fixed
    rw [Mapping.physicalOf, Permutation.fixes_iff.1 fixed]
    rfl
  simp only [Mapping.displaced, Bool.or_eq_false_iff, Bool.not_eq_false'] at home
  have hot := at_home id home.1
  have cool := at_home _ (slot_of_target found)
  rw [sound.mapping.physicalOf_logicalOf] at cool
  rw [← hot, ← cool]
  exact (vaultOf_target scope (sound.mapping.physicalOf_lt id_lt) found).symm

/-- Without moves between vaults, every turn of the policy keeps the mapping within vaults. -/
theorem take_withinVaults (sound : e.layer.Sound) (within : t.Within e.layer.geometry)
    (permitted : e.layer.settings.Permits t) (scope : e.layer.settings.interVault = false)
    (h : e.layer.mapping.WithinVaults) : (e.take t).layer.mapping.WithinVaults := by
  have rows := take_rowsKeep sound within scope h.rows
  have moves := take_moves sound within
  generalize e.take t = e' at moves rows
  cases moves with
  | still same => rwa [same.mapping]
  | returnBank id other q id_lt other_lt ne away there free mild swap mapping =>
      have found := sound.mapping.target?_slotOf other_lt
      rw [there] at found
      refine ⟨?_, ?_, rows⟩
      · rw [mapping]
        exact h.vaults
      · rw [mapping]
        exact h.banks.swap?_occupant found swap
  | swapBanks id target q id_lt ne needy home found swap mapping =>
      refine ⟨?_, ?_, rows⟩
      · rw [mapping]
        exact h.vaults
      · rw [mapping]
        exact h.banks.swap? (vaultOf_slots sound scope id_lt home found) swap
  | migrateRows id target moved id_lt ne needy found mapping =>
      rcases mapping with ⟨_, mapping⟩
      refine ⟨?_, ?_, rows⟩
      · rw [mapping]
        exact h.vaults
      · rw [mapping]
        exact h.banks
  | returnRows only =>
      rcases only.mapping with ⟨_, mapping⟩
      refine ⟨?_, ?_, rows⟩
      · rw [mapping]
        exact h.vaults
      · rw [mapping]
        exact h.banks
  -- Turns that move vaults belong to policies that may move data to other vaults.
  | returnVault v w =>
      cases permitted with
      | recoverVault _ policy inter => cases scope.symm.trans inter
  | swapVaults v w =>
      cases permitted with
      | relieveVault _ policy inter => cases scope.symm.trans inter

end Epoch

/-! ## Scopes -/

/-- The part of the mapping that a policy leaves alone is the identity. -/
structure Mapping.InScope (s : RelocationSettings) (m : Mapping) : Prop where
  disabling : s.policy = .disable ∨ s.policy = .vaultDisable → m = .identity m.geometry
  hybrid : s.policy = .hybrid → m = { identity m.geometry with rows := m.rows }
  swap : s.policy = .swap → m.rows = []
  within : s.interVault = false → m.WithinVaults

theorem Mapping.identity_inScope (s : RelocationSettings) (g : Geometry) :
    (identity g).InScope s where
  disabling := fun _ => rfl
  hybrid := fun _ => rfl
  swap := fun _ => rfl
  within := fun _ => identity_withinVaults g

namespace Epoch

open Layer

variable {s : RelocationSettings} {g : Geometry} {e e' : Epoch} {t : Turn}

/-- The turns of a policy that switches entities on and off move nothing. -/
theorem take_disabling (permitted : s.Permits t)
    (disabling : s.policy = .disable ∨ s.policy = .vaultDisable) :
    (e.take t).layer.mapping = e.layer.mapping := by
  cases permitted with
  | switchBank id => exact (Still.switchBank e id).mapping
  | switchVault v => exact (Still.switchVault e v).mapping
  | recoverBank id policy => rcases policy with policy | policy <;> simp [policy] at disabling
  | recoverVault v policy => simp [policy] at disabling
  | relieveVault v policy => simp [policy] at disabling
  | swapBank id policy => simp [policy] at disabling
  | migrateRows id policy => simp [policy] at disabling
  | recoverRows policy => simp [policy] at disabling

/-- The turns of the hybrid policy move rows only, since no bank is away that could go home. -/
theorem take_hybrid (sound : e.layer.Sound) (within : t.Within e.layer.geometry)
    (permitted : s.Permits t) (hybrid : s.policy = .hybrid)
    (home : e.layer.mapping.banks = .identity e.layer.geometry.totalBanks) :
    ∃ rows, (e.take t).layer.mapping = { e.layer.mapping with rows := rows } := by
  have moves := take_moves sound within
  generalize e.take t = e' at moves
  cases moves with
  | still same => exact ⟨_, same.mapping⟩
  | returnBank id other q id_lt other_lt ne away =>
      have fixed := Permutation.identity_target? (sound.mapping.slotOf_lt id_lt)
      rw [← Permutation.fixes_iff] at fixed
      rw [home] at away
      cases away.symm.trans fixed
  | migrateRows id target rows id_lt ne needy found mapping => exact mapping
  | returnRows only => exact only.mapping
  | swapBanks id =>
      cases permitted with
      | swapBank _ policy => simp [hybrid] at policy
  | returnVault v w =>
      cases permitted with
      | recoverVault _ policy => simp [hybrid] at policy
  | swapVaults v w =>
      cases permitted with
      | relieveVault _ policy => simp [hybrid] at policy

/-- Every turn of a policy stays in its scope. -/
theorem take_inScope (h : e.layer.Under s g) (member : t ∈ s.turns g)
    (holds : e.layer.mapping.InScope s) : (e.take t).layer.mapping.InScope s := by
  have permitted := RelocationSettings.permits_of_mem member
  have within : t.Within e.layer.geometry := h.geometry ▸ RelocationSettings.turns_within member
  have geometry : (e.take t).layer.mapping.geometry = e.layer.mapping.geometry :=
    (take_change h.sound within).frame.geometry
  refine ⟨fun disabling => ?_, fun hybrid => ?_, fun swap => ?_, fun scope => ?_⟩
  · rw [take_disabling permitted disabling]
    exact holds.disabling disabling
  · have home := holds.hybrid hybrid
    have banks := congrArg Mapping.banks home
    rcases take_hybrid h.sound within permitted hybrid banks with ⟨rows, mapping⟩
    rw [mapping]
    exact congrArg (fun m : Mapping => { m with rows := rows }) home
  · have whole := RelocationSettings.turns_whole (by simp [swap]) g t member
    rw [take_rows whole]
    exact holds.swap swap
  · rw [← h.settings] at permitted scope
    exact take_withinVaults h.sound within permitted scope (holds.within (h.settings ▸ scope))

end Epoch

/-! ## Runs -/

namespace Layer

variable {s : RelocationSettings} {g : Geometry} {l : Layer}

/-- What a policy leaves alone, and where rows may be. -/
structure InScope (l : Layer) (s : RelocationSettings) : Prop where
  /-- A policy that switches entities on and off moves nothing. -/
  disabling : s.policy = .disable ∨ s.policy = .vaultDisable → l.mapping = .identity l.geometry
  /-- The hybrid policy moves single rows only. -/
  hybrid : s.policy = .hybrid →
    l.mapping = { Mapping.identity l.geometry with rows := l.mapping.rows }
  /-- The policy that swaps moves no single rows, and vaults only where that is allowed. -/
  swap : s.policy = .swap → l.mapping.rows = [] ∧
    (s.interVault = false → l.mapping.vaults = .identity l.geometry.vaults)
  /-- Where data may not move to other vaults, all rows are in their logical vaults. -/
  rows : s.interVault = false → ∀ r, l.geometry.holds r.place = true →
    ∃ q, l.physicalLocation r = .ok q ∧ q.vault = r.vault

theorem inScope_of_mapping (h : l.mapping.InScope s) : l.InScope s where
  disabling := h.disabling
  hybrid := h.hybrid
  swap := fun swap => ⟨h.swap swap, fun scope => (h.within scope).vaults⟩
  rows := by
    intro scope r held
    have stays := (h.within scope).physicalOfRow (bankId_lt held) r.row
    refine ⟨_, physicalLocation_of_holds held, ?_⟩
    exact stays.trans (Geometry.vaultOf_bankId _ (Geometry.holds_iff.1 held).2)

/-- In every run each policy stays in its scope, also between the turns of an epoch. -/
theorem run_inScope (s : RelocationSettings) (g : Geometry) (ops : List Operation) :
    let l := (ofSettings s g).run ops
    l.InScope s ∧ ∀ n, (l.stage n).InScope s := by
  intro l
  have under : l.Under s g := (ofSettings_under s g).run ops
  have keep : ∀ (e : Epoch), ∀ t ∈ s.turns g, e.layer.Under s g → e.layer.mapping.InScope s →
      (e.take t).layer.mapping.InScope s := fun e t member h => Epoch.take_inScope h member
  have now := run_mapping keep (Mapping.identity_inScope s g) ops
  exact ⟨inScope_of_mapping now, fun n => inScope_of_mapping (stage_mapping keep under now n)⟩

/-- A hot bank changes place with a cool one, and its rows are still in its vault. -/
theorem run_inScope_swap :
    let s : RelocationSettings := { policy := .swap }
    let l := (ofSettings s ⟨2, 2, 4⟩).run [.setTemperature ⟨1, 0⟩ ⟨90.0⟩, .runEpoch]
    l.mapping ≠ .identity l.geometry ∧ l.mapping.rows = [] ∧
      ∃ q, l.physicalLocation ⟨1, 0, 3⟩ = .ok q ∧ q.vault = 1 := by
  intro s l
  have holds := (run_inScope s ⟨2, 2, 4⟩ [.setTemperature ⟨1, 0⟩ ⟨90.0⟩, .runEpoch]).1
  exact ⟨by decide +kernel, (holds.swap rfl).1, holds.rows rfl ⟨1, 0, 3⟩ (by decide +kernel)⟩

end Layer

end StackedCache
