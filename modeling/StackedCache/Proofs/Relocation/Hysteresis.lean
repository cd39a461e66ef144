import StackedCache.Proofs.Relocation.Calm
import StackedCache.Proofs.Relocation.Means
import StackedCache.Proofs.Relocation.Reports
import StackedCache.Proofs.Relocation.Safety

/-!
# Hysteresis

The two policies that only switch on and off are one automaton with two thresholds.  One policy runs
it for each bank, with the reading of the bank, and the other for each vault, with the mean of the
vault.  An epoch is one step of it for every entity, since no turn of these policies touches what
the other turns look at.

Counts follow the entities: with each disablement one more is out of use, and with each recovery one
fewer.  `excess` is what the counts have beyond that, and only a reset of the counts changes it.
-/

namespace StackedCache

/-- One step of the automaton.  At the high threshold an entity is off, and below the lower one it is
on; in between it stays as it is. -/
def RelocationSettings.trips (s : RelocationSettings) (t : Celsius) (off : Bool) : Bool :=
  s.high.value ≤ t.value || off && s.cool.value ≤ t.value

/-- The turn in which an entity is switched. -/
def Entity.switch : Entity → Turn
  | bank id => .switchBank id
  | vault v => .switchVault v

/-- The entities that a policy switches. -/
def RelocationSettings.switched (s : RelocationSettings) (g : Geometry) : List Entity :=
  match s.policy with
  | .disable => g.bankIds.map .bank
  | .vaultDisable => (List.range g.vaults).map .vault
  | .swap | .hybrid => []

namespace Layer

variable {l l' : Layer} {x y : Entity} {f : Entry → Entry} {b : Bool}

/-- An entity's own entry says it is out of use. -/
def off (l : Layer) (x : Entity) : Bool := (l.entity? x).any (·.disabled)

/-- The temperature by which an entity is switched. -/
def reading (l : Layer) : Entity → Celsius
  | .bank id => l.temperatureOf id
  | .vault v => l.ledger.vaultTemperature ((l.mapping.vaults.target? v).getD v)

/-- Disablements beyond recoveries. -/
def surplus (l : Layer) : Int := l.counts.disables - l.counts.recoveries

/-- What the counts have beyond the entities that are out of use. -/
def excess (l : Layer) (entities : List Entity) : Int := l.surplus - entities.countP l.off

/-! ## Entities out of use -/

theorem off_modifyBank (l : Layer) (id : Nat) (hf : ∀ e : Entry, (f e).disabled = e.disabled) :
    (l.modifyBank id f).off = l.off := by
  funext x
  unfold off
  rw [entity?_modifyBank]
  split
  · cases l.entity? x <;> simp [hf]
  · rfl

theorem off_modifyBanks (l : Layer) (ids : List Nat)
    (hf : ∀ e : Entry, (f e).disabled = e.disabled) : (l.modifyBanks ids f).off = l.off := by
  induction ids generalizing l with
  | nil => rfl
  | cons id ids ih => exact (ih (l.modifyBank id f)).trans (off_modifyBank l id hf)

theorem off_modifyVault (l : Layer) (v : Nat) (hf : ∀ e : Entry, (f e).disabled = e.disabled) :
    (l.modifyVault v f).off = l.off := by
  funext x
  unfold off
  rw [entity?_modifyVault]
  split
  · cases l.entity? x <;> simp [hf]
  · rfl

theorem off_mapEntries (l : Layer) {f' : Entry → Entry}
    (hf : ∀ e : Entry, (f e).disabled = e.disabled)
    (hf' : ∀ e : Entry, (f' e).disabled = e.disabled) :
    off { l with banks := l.banks.map f, vaults := l.vaults.map f' } = l.off := by
  funext x
  cases x with
  | bank id =>
      simp only [off, entity?, bank?, Array.getElem?_map, Option.any_map, hf]
  | vault v =>
      simp only [off, entity?, vault?, Array.getElem?_map, Option.any_map, hf']

/-- A bank whose entry is switched is on or off, and the other entities stay as they are. -/
theorem off_modifyBank_switched (h : l.Sound) {id : Nat} (id_lt : id < l.geometry.totalBanks)
    (hf : ∀ e : Entry, (f e).disabled = b) (y : Entity) :
    (l.modifyBank id f).off y = if y = .bank id then b else l.off y := by
  rcases h.exists_bank id_lt with ⟨entry, found⟩
  unfold off
  rw [entity?_modifyBank]
  split
  · rename_i same
    rw [same, entity?, found]
    exact hf entry
  · rfl

theorem off_modifyVault_switched (h : l.Sound) {v : Nat} (v_lt : v < l.geometry.vaults)
    (hf : ∀ e : Entry, (f e).disabled = b) (y : Entity) :
    (l.modifyVault v f).off y = if y = .vault v then b else l.off y := by
  rcases h.exists_vault v_lt with ⟨entry, found⟩
  unfold off
  rw [entity?_modifyVault]
  split
  · rename_i same
    rw [same, entity?, found]
    exact hf entry
  · rfl

end Layer

/-! ## One turn -/

namespace Epoch

open Layer

variable {s : RelocationSettings} {g : Geometry} {e e' : Epoch} {x y : Entity}

/-- Takes an entity into use again. -/
def enable (e : Epoch) : Entity → Epoch
  | .bank id => e.enableBank id
  | .vault v => e.enableVault v

/-- Takes an entity that is at home out of use. -/
def disable (e : Epoch) : Entity → Epoch
  | .bank id => e.disableBank id false
  | .vault v => e.disableVault v

/-- What a turn asks: an entity out of use has to be cool, and one in use has to be hot. -/
theorem take_switch_eq (e : Epoch) (x : Entity) :
    e.take x.switch =
      if e.layer.off x then
        if (e.layer.reading x).below e.layer.settings.cool then e.enable x else e
      else if (e.layer.reading x).reaches e.layer.settings.high then e.disable x
      else e := by
  cases x <;> rfl

theorem off_enable (h : e.layer.Sound) (within : x.switch.Within e.layer.geometry) (y : Entity) :
    (e.enable x).layer.off y = if y = x then false else e.layer.off y := by
  cases x with
  | bank id => exact off_modifyBank_switched (f := Entry.enable) h within (fun _ => rfl) y
  | vault v => exact off_modifyVault_switched (f := Entry.enable) h within (fun _ => rfl) y

theorem off_disable (h : e.layer.Sound) (within : x.switch.Within e.layer.geometry) (y : Entity) :
    (e.disable x).layer.off y = if y = x then true else e.layer.off y := by
  cases x with
  | bank id => exact off_modifyBank_switched (f := (·.disable false)) h within (fun _ => rfl) y
  | vault v =>
      -- The banks of the vault lose their data, and are in use as before.
      have banks := off_modifyBanks (f := Entry.invalidate)
        (e.layer.modifyVault v (·.disable false)) (e.layer.geometry.bankIdsOf v) fun _ => rfl
      have vault := off_modifyVault_switched (f := (·.disable false)) h within (fun _ => rfl) y
      exact (congrFun banks y).trans vault

theorem surplus_enable (e : Epoch) (x : Entity) :
    (e.enable x).layer.surplus = e.layer.surplus - 1 := by
  have counted : (e.enable x).layer.counts =
      { e.layer.counts with recoveries := e.layer.counts.recoveries + 1 } := by
    cases x <;> rfl
  simp only [surplus, counted]
  omega

theorem surplus_disable (e : Epoch) (x : Entity) :
    (e.disable x).layer.surplus = e.layer.surplus + 1 := by
  have counted : (e.disable x).layer.counts =
      { e.layer.counts with disables := e.layer.counts.disables + 1 } := by
    cases x with
    | bank id => rfl
    | vault v => simp [disable, disableVault, reporting, counting, modifyVault, Layer.modifyVault]
  simp only [surplus, counted]
  omega

/-- Whether an entity is out of use after its turn. -/
def switches (e : Epoch) (x : Entity) : Bool :=
  if e.layer.off x then !(e.layer.reading x).below e.layer.settings.cool
  else (e.layer.reading x).reaches e.layer.settings.high

/-- One entity is switched, or stays as it is, and the counts say so. -/
structure Switched (e : Epoch) (x : Entity) (e' : Epoch) : Prop where
  off : ∀ y, e'.layer.off y = if y = x then e.switches x else e.layer.off y
  surplus : e'.layer.surplus + (e.layer.off x).toNat = e.layer.surplus + (e.switches x).toNat

theorem Switched.kept (same : e.switches x = e.layer.off x) : Switched e x e where
  off := by
    intro y
    split
    · rename_i heq
      rw [heq, same]
    · rfl
  surplus := by rw [same]

/-- The turn of an entity switches that entity, by its reading, and no other. -/
theorem take_switched (h : e.layer.Sound) (within : x.switch.Within e.layer.geometry) :
    Switched e x (e.take x.switch) := by
  rw [take_switch_eq]
  cases was : e.layer.off x with
  | true =>
      cases cool : (e.layer.reading x).below e.layer.settings.cool with
      | true =>
          have now : e.switches x = false := by simp [switches, was, cool]
          refine ⟨fun y => ?_, ?_⟩
          · simpa [now] using off_enable h within y
          · simp [now, was, surplus_enable]
      | false => exact .kept (by simp [switches, was, cool])
  | false =>
      cases hot : (e.layer.reading x).reaches e.layer.settings.high with
      | true =>
          have now : e.switches x = true := by simp [switches, was, hot]
          refine ⟨fun y => ?_, ?_⟩
          · simpa [now] using off_disable h within y
          · simp [now, was, surplus_disable]
      | false => exact .kept (by simp [switches, was, hot])

theorem take_switch_mapping (e : Epoch) (x : Entity) :
    (e.take x.switch).layer.mapping = e.layer.mapping := by
  cases x with
  | bank id => exact (Still.switchBank e id).mapping
  | vault v => exact (Still.switchVault e v).mapping

/-- A turn that moves nothing leaves all readings as they are. -/
theorem take_switch_reading (h : e.layer.Sound) (within : x.switch.Within e.layer.geometry)
    (y : Entity) : (e.take x.switch).layer.reading y = e.layer.reading y := by
  have ledger := (take_change h within).frame.ledger
  have mapping := take_switch_mapping e x
  cases y <;> simp only [reading, temperatureOf, ledger, mapping]

/-! ## Passes -/

/-- In a pass each entity is switched by its reading at the start. -/
theorem takeAll_off {entities : List Entity} (nodup : entities.Nodup)
    (within : ∀ x ∈ entities, x.switch.Within g) (h : e.layer.Under s g) (y : Entity) :
    (e.takeAll (entities.map Entity.switch)).layer.off y =
      if y ∈ entities then e.switches y else e.layer.off y := by
  induction entities generalizing e with
  | nil => rfl
  | cons x entities ih =>
      rw [List.nodup_cons] at nodup
      have here : x.switch.Within e.layer.geometry := h.geometry ▸ within x List.mem_cons_self
      have change := take_change h.sound here
      have under : (e.take x.switch).layer.Under s g := h.changes (.single change)
      have switched := take_switched h.sound here
      have rest := ih nodup.2 (fun x hx => within x (List.mem_cons_of_mem _ hx)) under
      refine rest.trans ?_
      -- The turn of `x` is the first one, and the others see everything else as it was.
      by_cases heq : y = x
      · subst heq
        rw [if_neg nodup.1, if_pos List.mem_cons_self, switched.off, if_pos rfl]
      · have off := (switched.off y).trans (if_neg heq)
        have same : (e.take x.switch).switches y = e.switches y := by
          rw [switches, off, take_switch_reading h.sound here, change.frame.settings, switches]
        simp only [List.mem_cons, heq, false_or, same, off]

end Epoch

/-- A number that is switched for one element of a list counts for it once. -/
theorem countP_switched {entities : List Entity} (nodup : entities.Nodup) {x : Entity}
    (member : x ∈ entities) {f f' : Entity → Bool} {b : Bool}
    (switched : ∀ y, f' y = if y = x then b else f y) :
    entities.countP f' + (f x).toNat = entities.countP f + b.toNat := by
  induction entities with
  | nil => cases member
  | cons y entities ih =>
      rw [List.nodup_cons] at nodup
      rw [List.countP_cons, List.countP_cons]
      by_cases heq : x = y
      · subst heq
        have others : entities.countP f' = entities.countP f := by
          refine List.countP_congr fun z hz => ?_
          have ne : z ≠ x := by
            rintro rfl
            exact nodup.1 hz
          rw [switched, if_neg ne]
        have here : f' x = b := (switched x).trans (if_pos rfl)
        rw [others, here]
        cases b <;> cases f x <;> simp
      · have rest := ih nodup.2 ((List.mem_cons.1 member).resolve_left heq)
        have here : f' y = f y := (switched y).trans (if_neg fun same => heq same.symm)
        rw [here]
        omega

/-! ## Entities of a policy -/

namespace RelocationSettings

variable {s : RelocationSettings} {g : Geometry} {t : Celsius} {x : Entity}

/-- The two policies that switch on and off. -/
def Disabling (s : RelocationSettings) : Prop := s.policy = .disable ∨ s.policy = .vaultDisable

theorem switched_nodup (s : RelocationSettings) (g : Geometry) : (s.switched g).Nodup := by
  unfold switched
  cases s.policy with
  | disable =>
      exact List.Pairwise.map _ (fun _ _ ne same => ne (Entity.bank.inj same)) List.nodup_range
  | vaultDisable =>
      exact List.Pairwise.map _ (fun _ _ ne same => ne (Entity.vault.inj same)) List.nodup_range
  | swap => exact List.nodup_nil
  | hybrid => exact List.nodup_nil

/-- A policy that switches on and off has no turns but these. -/
theorem turns_switched (disabling : s.Disabling) (g : Geometry) :
    s.turns g = (s.switched g).map Entity.switch := by
  unfold turns passes switched
  rcases disabling with policy | policy
  · simp [policy, Pass.turns, Entity.switch]
  · simp [policy, Pass.turns, Entity.switch]

theorem switch_within (disabling : s.Disabling) (member : x ∈ s.switched g) :
    x.switch.Within g := by
  apply turns_within (s := s)
  rw [turns_switched disabling]
  exact List.mem_map_of_mem member

theorem trips_eq_reaches (s : RelocationSettings) (t : Celsius) (off : Bool) :
    s.trips t off = (t.reaches s.high || off && t.reaches s.cool) := by
  rw [trips, Bool.eq_iff_iff]
  simp [Celsius.reaches_iff]

/-- For a number, the two questions of a turn are one step of the automaton. -/
theorem Valid.trips_eq (valid : s.Valid) (number : t.isNaN = false) (off : Bool) :
    (if off then !t.below s.cool else t.reaches s.high) = s.trips t off := by
  rw [trips_eq_reaches]
  cases off with
  | false => simp
  | true =>
      cases cool : t.below s.cool with
      | true =>
          have mild := Celsius.reaches_of_below cool
          have notHot : t.reaches s.high = false := by
            by_contra hot
            rw [valid.reaches_cool (by simpa using hot)] at mild
            cases mild
          simp [mild, notHot]
      | false =>
          have bound := Celsius.isNaN_of_isFinite (valid.finite s.cool (by simp [temperatures]))
          simp [Celsius.reaches_of_not_below number bound cool]

end RelocationSettings

/-! ## Epochs and other operations -/

namespace Layer

open Epoch

variable {s : RelocationSettings} {g : Geometry} {l : Layer} {x : Entity} {entities : List Entity}

/-- An epoch switches the entities of the policy. -/
theorem runEpoch_off (h : l.Under s g) (enabled : s.enabled = true) (disabling : s.Disabling)
    (x : Entity) :
    l.runEpoch.2.off x = if x ∈ s.switched g then l.nextEpoch.switches x else l.off x := by
  rw [runEpoch_countFailures h enabled, s.turns_switched disabling]
  exact takeAll_off (s.switched_nodup g) (fun _ => s.switch_within disabling) h.nextEpoch x

/-- One step of the automaton for each entity of the policy. -/
theorem runEpoch_trips (valid : s.Valid) (h : l.Under s g) (enabled : s.enabled = true)
    (disabling : s.Disabling) (member : x ∈ s.switched g)
    (number : (l.reading x).isNaN = false) :
    l.runEpoch.2.off x = s.trips (l.reading x) (l.off x) := by
  have reading : l.nextEpoch.layer.reading x = l.reading x := by
    cases x <;> rfl
  have off : l.nextEpoch.layer.off x = l.off x := by
    cases x <;> rfl
  have settings : l.nextEpoch.layer.settings = s := h.settings
  rw [runEpoch_off h enabled disabling, if_pos member, switches, reading, off, settings]
  exact valid.trips_eq number _

/-- A turn that switches an entity changes the counts by as much. -/
theorem excess_take {e : Epoch} (nodup : entities.Nodup) (member : x ∈ entities)
    (h : e.layer.Sound) (within : x.switch.Within e.layer.geometry) :
    (e.take x.switch).layer.excess entities = e.layer.excess entities := by
  have switched := take_switched h within
  have counted := countP_switched nodup member switched.off
  have surplus := switched.surplus
  unfold excess
  omega

theorem runEpoch_excess (h : l.Under s g) (enabled : s.enabled = true) (disabling : s.Disabling) :
    l.runEpoch.2.excess (s.switched g) = l.excess (s.switched g) := by
  have turns := s.turns_switched disabling g
  have kept := takeAll_keeps (P := fun l' => l'.excess (s.switched g) = l.excess (s.switched g))
    (fun t ht => RelocationSettings.turns_within ht)
    (fun e t ht under same => by
      rw [turns] at ht
      rcases List.mem_map.1 ht with ⟨x, member, rfl⟩
      have within := under.geometry ▸ s.switch_within disabling member
      exact (excess_take (s.switched_nodup g) member under.sound within).trans same)
    h.nextEpoch rfl
  rw [runEpoch_countFailures h enabled]
  exact kept

/-- Only epochs take entities out of use or into use. -/
theorem perform_off {op : Operation} (epoch : op ≠ .runEpoch) : (l.perform op).off = l.off := by
  cases op with
  | setTemperature p t =>
      rcases perform_setTemperature l p t with ⟨ledger, stored⟩
      rw [stored]
      rfl
  | recordAccess row requests =>
      rcases perform_recordAccess l row requests with refused | ⟨ledger, recorded⟩
      · rw [refused]
      · rw [recorded, off_modifyVault (f := (·.recordAccess row.bank requests)) _ _ fun _ => rfl]
        exact off_modifyBank (f := (·.recordAccess row.row requests)) { l with ledger := ledger } _
          fun _ => rfl
  | runEpoch => exact absurd rfl epoch
  | settle => exact off_mapEntries l (fun _ => rfl) fun _ => rfl
  | resetCounts =>
      exact off_mapEntries { l with counts := {}, ledger := l.ledger.resetCounts } (fun _ => rfl)
        fun _ => rfl

/-- Without a reset, the counts and the entities go together. -/
theorem run_excess (h : l.Under s g) (enabled : s.enabled = true) (disabling : s.Disabling)
    {ops : List Operation} (kept : .resetCounts ∉ ops) :
    (l.run ops).excess (s.switched g) = l.excess (s.switched g) := by
  induction ops generalizing l with
  | nil => rfl
  | cons op ops ih =>
      rw [List.mem_cons, not_or] at kept
      refine (ih (h.perform op) kept.2).trans ?_
      by_cases epoch : op = .runEpoch
      · subst epoch
        exact runEpoch_excess h enabled disabling
      · unfold excess surplus
        rw [perform_off epoch, perform_counts epoch (Ne.symm kept.1)]

/-! ## Entities of a run -/

theorem ofSettings_off (s : RelocationSettings) (g : Geometry) (x : Entity) :
    (ofSettings s g).off x = false := by
  cases x with
  | bank id =>
      simp only [off, entity?, ofSettings, bank?, Array.getElem?_map]
      cases (Array.range g.totalBanks)[id]? <;> simp [Entry.fresh]
  | vault v => exact ofSettings_vaultDisabled s g v

/-- An entity that the policy does not switch is never out of use. -/
theorem run_off_other (enabled : s.enabled = true) (disabling : s.Disabling)
    (other : x ∉ s.switched g) (ops : List Operation) :
    ((ofSettings s g).run ops).off x = false := by
  have kept : ∀ (l : Layer), l.Under s g → (l.run ops).off x = l.off x := by
    induction ops with
    | nil => exact fun _ _ => rfl
    | cons op ops ih =>
        intro l under
        refine (ih _ (under.perform op)).trans ?_
        by_cases epoch : op = .runEpoch
        · subst epoch
          exact (runEpoch_off under enabled disabling x).trans (if_neg other)
        · exact congrFun (perform_off epoch) x
  exact (kept _ (ofSettings_under s g)).trans (ofSettings_off s g x)

/-- A policy that switches on and off leaves everything at home. -/
theorem run_mapping_identity (disabling : s.Disabling) (ops : List Operation) :
    ((ofSettings s g).run ops).mapping = .identity g := by
  refine run_mapping (P := (· = Mapping.identity g)) ?_ rfl ops
  intro e t member _ home
  rw [take_disabling (RelocationSettings.permits_of_mem member) disabling, home]

/-- What an epoch does is in the journal. -/
theorem runEpoch_journals (h : l.Sound) : Journals l l.runEpoch.2 := by
  have epoch : Operation.runEpoch ≠ .settle := by simp
  exact perform_journals h epoch

/-- Banks as switched by their readings: what an epoch does to each, and what the counts say of them
since the layer `start`. -/
structure SwitchesBanks (s : RelocationSettings) (g : Geometry) (start l : Layer) : Prop where
  /-- A bank takes a step of the automaton with its reading. -/
  trips : ∀ p t, l.temperature? p = some t → t.isNaN = false →
    l.runEpoch.2.disabled p = s.trips t (l.disabled p)
  /-- A bank that comes out of use loses its data. -/
  drops : ∀ p, l.disabled p = false → l.runEpoch.2.disabled p = true →
    l.runEpoch.2.contentValid p = false
  /-- Disablements beyond recoveries are the banks that have come out of use. -/
  counts : (l.counts.disables : Int) - l.counts.recoveries =
    (g.bankIds.countP l.idDisabled : Int) - g.bankIds.countP start.idDisabled

/-- Vaults as switched by their means. -/
structure SwitchesVaults (s : RelocationSettings) (g : Geometry) (start l : Layer) : Prop where
  /-- A vault takes a step of the automaton with the mean of its banks. -/
  trips : ∀ v < g.vaults, (l.vaultMean v).isNaN = false →
    l.runEpoch.2.vaultDisabled v = s.trips (l.vaultMean v) (l.vaultDisabled v)
  /-- The banks of a vault are out of use with it. -/
  banks : ∀ p, g.holds p = true → l.disabled p = l.vaultDisabled p.vault
  /-- All banks of a vault that comes out of use lose their data. -/
  drops : ∀ v, l.vaultDisabled v = false → l.runEpoch.2.vaultDisabled v = true →
    ∀ p, g.holds p = true → p.vault = v → l.runEpoch.2.contentValid p = false
  counts : (l.counts.disables : Int) - l.counts.recoveries =
    ((List.range g.vaults).countP l.vaultDisabled : Int) -
      (List.range g.vaults).countP start.vaultDisabled

section Policies

variable {start : Layer} (valid : s.Valid) (h : l.Under s g) (enabled : s.enabled = true)
  (counted : l.surplus = ((s.switched g).countP l.off : Int) - (s.switched g).countP start.off)

include valid h enabled counted

theorem switchesBanks (policy : s.policy = .disable) (home : l.mapping = .identity g)
    (vaults : ∀ v, l.vaultDisabled v = false ∧ l.runEpoch.2.vaultDisabled v = false ∧
      start.vaultDisabled v = false) : SwitchesBanks s g start l := by
  have disabling : s.Disabling := .inl policy
  have switched : s.switched g = g.bankIds.map .bank := by simp [RelocationSettings.switched, policy]
  have journal : Journals l l.runEpoch.2 := runEpoch_journals h.sound
  constructor
  · intro p t found number
    unfold temperature? at found
    split at found
    · rename_i held
      cases found
      have range := bankId_lt held
      -- Everything is at home, so the reading of the place is the one the turn looks at.
      have reading : l.reading (.bank (l.geometry.bankId p)) =
          l.ledger.temperature (l.geometry.bankId p) := by
        rw [h.geometry] at range ⊢
        rw [Layer.reading, temperatureOf, home, Mapping.physicalOf_identity range]
      have member : Entity.bank (l.geometry.bankId p) ∈ s.switched g := by
        rw [switched]
        exact List.mem_map_of_mem (Geometry.mem_bankIds.2 (h.geometry ▸ range))
      have trips := runEpoch_trips valid h enabled disabling member (reading ▸ number)
      rw [reading] at trips
      have geometry : l.runEpoch.2.geometry = l.geometry := journal.geometry
      simp only [disabled, idDisabled, geometry, held, vaults, Bool.true_and, Bool.or_false]
      exact trips
    · cases found
  · intro p before after
    -- A bank out of use whose data is valid would have been out of use before.
    by_contra content
    have used := journal.used after (by simpa using content)
    rw [before] at used
    cases used.1
  · rw [switched, List.countP_map, List.countP_map] at counted
    have now : (l.off ∘ Entity.bank : Nat → Bool) = l.idDisabled := by
      funext id
      simp only [Function.comp_apply, idDisabled, vaults, Bool.or_false]
      rfl
    have early : (start.off ∘ Entity.bank : Nat → Bool) = start.idDisabled := by
      funext id
      simp only [Function.comp_apply, idDisabled, vaults, Bool.or_false]
      rfl
    rwa [now, early] at counted

theorem switchesVaults (policy : s.policy = .vaultDisable) (home : l.mapping = .identity g)
    (measured : l.Measured) (banks : ∀ id, l.bankDisabled id = false) :
    SwitchesVaults s g start l := by
  have disabling : s.Disabling := .inr policy
  have switched : s.switched g = (List.range g.vaults).map .vault := by
    simp [RelocationSettings.switched, policy]
  have journal : Journals l l.runEpoch.2 := runEpoch_journals h.sound
  constructor
  · intro v range number
    have reading : l.reading (.vault v) = l.vaultMean v := by
      have there : (Mapping.identity g).vaults.target? v = some v :=
        Permutation.identity_target? range
      rw [Layer.reading, home, there]
      exact measured.vaultTemperature (h.geometry ▸ range)
    have member : Entity.vault v ∈ s.switched g := by
      rw [switched]
      exact List.mem_map_of_mem (List.mem_range.2 range)
    have trips := runEpoch_trips valid h enabled disabling member (reading ▸ number)
    rwa [reading] at trips
  · intro p held
    have vault := Geometry.vaultOf_bankId g (Geometry.holds_iff.1 held).2
    rw [disabled, idDisabled, banks, h.geometry, held, vault]
    rfl
  · intro v before after p held same
    have geometry : l.runEpoch.2.geometry = g := journal.geometry.trans h.geometry
    have vault := Geometry.vaultOf_bankId g (Geometry.holds_iff.1 held).2
    rcases journal.vaultDisabled v after with off | dropped
    · rw [before] at off
      cases off
    · have range : g.bankId p < g.totalBanks := by
        rcases Geometry.holds_iff.1 held with ⟨hv, hb⟩
        exact Geometry.bankId_lt hv hb
      rw [h.geometry] at dropped
      have here := dropped (g.bankId p) range (vault.trans same)
      rw [contentValid_eq, geometry, held]
      exact congrArg (fun b => !(true && b)) here
  · rw [switched, List.countP_map, List.countP_map] at counted
    exact counted

end Policies

/-- With valid settings, the policies that disable are automata with two thresholds: in every run and
every epoch, for each bank or for each vault whose temperature is a number. -/
theorem run_hysteresis {s : Settings} (valid : s.check = .ok ())
    (enabled : s.relocation.enabled = true) (before since : List Operation)
    (reset : before = [] ∨ before.getLast? = some .resetCounts) (kept : .resetCounts ∉ since) :
    let g := Geometry.ofSettings s.stack
    let start := (ofSettings s.relocation g).run before
    (s.relocation.policy = .disable →
      SwitchesBanks s.relocation g start (start.run since)) ∧
      (s.relocation.policy = .vaultDisable →
        SwitchesVaults s.relocation g start (start.run since)) := by
  intro g start
  have settings := (Settings.check_eq_ok_iff.1 valid).relocation
  have early : start.Under s.relocation g := (ofSettings_under _ _).run before
  have late : (start.run since).Under s.relocation g := early.run since
  have whole : (ofSettings s.relocation g).run (before ++ since) = start.run since :=
    run_append _ before since
  have clear : start.counts = {} := counts_of_reset s.relocation g reset
  have counted : s.relocation.Disabling → (start.run since).surplus =
      ((s.relocation.switched g).countP (start.run since).off : Int) -
        (s.relocation.switched g).countP start.off := by
    intro disabling
    have same := run_excess early enabled disabling kept
    have none : start.surplus = 0 := by simp [surplus, clear]
    unfold excess at same
    omega
  have home : s.relocation.Disabling → (start.run since).mapping = .identity g := by
    intro disabling
    rw [← whole]
    exact run_mapping_identity disabling _
  constructor
  · intro policy
    have disabling : s.relocation.Disabling := .inl policy
    refine switchesBanks settings late enabled (counted disabling) policy (home disabling) fun v => ?_
    have other : Entity.vault v ∉ s.relocation.switched g := by
      simp [RelocationSettings.switched, policy]
    have never := run_off_other enabled disabling other
    have next := never (before ++ since ++ [.runEpoch])
    have now := never (before ++ since)
    rw [run_append, whole] at next
    rw [whole] at now
    exact ⟨now, next, never before⟩
  · intro policy
    have disabling : s.relocation.Disabling := .inr policy
    have measured : (start.run since).Measured := whole ▸ run_measured ..
    refine switchesVaults settings late enabled (counted disabling) policy (home disabling) measured
      fun id => ?_
    have other : Entity.bank id ∉ s.relocation.switched g := by
      simp [RelocationSettings.switched, policy]
    have now := run_off_other enabled disabling other (before ++ since)
    rwa [whole] at now

/-- A bank that has come out of use stays so while its reading is between the two thresholds, and a
vault while the mean of its two banks is, although one of them is cool. -/
theorem run_hysteresis_between :
    (let s := Settings.twoBanks .disable
      let start := ofSettings s.relocation (.ofSettings s.stack)
      let since : List Operation :=
        [.setTemperature ⟨0, 0⟩ ⟨90.0⟩, .runEpoch, .setTemperature ⟨0, 0⟩ ⟨82.0⟩]
      let l := start.run since
      s.check = .ok () ∧ .resetCounts ∉ since ∧ l.disabled ⟨0, 0⟩ = true ∧
        l.runEpoch.2.disabled ⟨0, 0⟩ = true ∧
        (l.counts.disables : Int) - l.counts.recoveries = 1) ∧
      let s := Settings.twoBanks .vaultDisable
      let start := ofSettings s.relocation (.ofSettings s.stack)
      let since : List Operation :=
        [.setTemperature ⟨0, 0⟩ ⟨92.0⟩, .setTemperature ⟨0, 1⟩ ⟨90.0⟩, .runEpoch,
          .setTemperature ⟨0, 0⟩ ⟨75.0⟩]
      let l := start.run since
      s.check = .ok () ∧ .resetCounts ∉ since ∧ l.vaultDisabled 0 = true ∧ l.vaultMean 0 = ⟨82.5⟩ ∧
        l.runEpoch.2.vaultDisabled 0 = true ∧
        (l.counts.disables : Int) - l.counts.recoveries = 1 := by
  constructor
  · intro s start since l
    have valid : s.check = .ok () := by decide +kernel
    have kept : Operation.resetCounts ∉ since := by simp [since]
    have switches : SwitchesBanks s.relocation (.ofSettings s.stack) start l :=
      (run_hysteresis valid rfl [] since (.inl rfl) kept).1 rfl
    have off : l.disabled ⟨0, 0⟩ = true := by decide +kernel
    have held : l.geometry.holds ⟨0, 0⟩ = true := by decide +kernel
    have number : (l.ledger.temperature (l.geometry.bankId ⟨0, 0⟩)).isNaN = false := by
      decide +kernel
    have warm : s.relocation.trips (l.ledger.temperature (l.geometry.bankId ⟨0, 0⟩)) true = true := by
      decide +kernel
    have one : (((Geometry.ofSettings s.stack).bankIds.countP l.idDisabled : Nat) : Int) -
        (Geometry.ofSettings s.stack).bankIds.countP start.idDisabled = 1 := by
      decide +kernel
    have trips := switches.trips ⟨0, 0⟩ _ (if_pos held) number
    rw [off, warm] at trips
    exact ⟨valid, kept, off, trips, switches.counts.trans one⟩
  · intro s start since l
    have valid : s.check = .ok () := by decide +kernel
    have kept : Operation.resetCounts ∉ since := by simp [since]
    have switches : SwitchesVaults s.relocation (.ofSettings s.stack) start l :=
      (run_hysteresis valid rfl [] since (.inl rfl) kept).2 rfl
    have off : l.vaultDisabled 0 = true := by decide +kernel
    have mean : l.vaultMean 0 = ⟨82.5⟩ := Celsius.order_inj.1 (by decide +kernel)
    have warm : s.relocation.trips ⟨82.5⟩ true = true := by decide +kernel
    have one : (((List.range (Geometry.ofSettings s.stack).vaults).countP l.vaultDisabled : Nat) : Int)
        - (List.range (Geometry.ofSettings s.stack).vaults).countP start.vaultDisabled = 1 := by
      decide +kernel
    have number : Celsius.isNaN ⟨82.5⟩ = false := by decide +kernel
    have trips := switches.trips 0 (by decide +kernel) (mean ▸ number)
    rw [off, mean, warm] at trips
    exact ⟨valid, kept, off, mean, trips, switches.counts.trans one⟩

end Layer

end StackedCache
