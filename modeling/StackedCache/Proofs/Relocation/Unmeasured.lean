import StackedCache.Proofs.Relocation.Choice
import StackedCache.Proofs.Relocation.Hysteresis
import StackedCache.Proofs.Relocation.RowReturn

/-!
# Places without a measurement

A reading may be NaN, and then a mean is.  A NaN is neither below a threshold nor at or above it, so
it matters which of the two a turn asks for, and which answer lets it act.

Turns that switch, the return of rows and every search for a partner act if the comparison holds, and
a NaN stops them.  Turns that recover act unless a place is too warm, and turns that relieve act
unless it is too cool; neither is stopped by a NaN.  `Layer.Justified` says which is which.
-/

namespace StackedCache

open Relation (ReflTransGen)

namespace Celsius

variable {t bound : Celsius}

/-- What does not reach a number is below it, or is no number. -/
theorem below_or_isNaN (number : bound.isNaN = false) (h : t.reaches bound = false) :
    t.below bound = true ∨ t.isNaN = true := by
  cases nan : t.isNaN with
  | true => exact .inr rfl
  | false => exact .inl (below_of_not_reaches nan number h)

theorem reaches_or_isNaN (number : bound.isNaN = false) (h : t.below bound = false) :
    t.reaches bound = true ∨ t.isNaN = true := by
  cases nan : t.isNaN with
  | true => exact .inr rfl
  | false => exact .inl (reaches_of_not_below nan number h)

end Celsius

namespace Layer

variable {l l' : Layer} {t : Turn} {x : Entity}

/-- What the temperatures must have said for what a turn does. -/
structure Justified (t : Turn) (l l' : Layer) : Prop where
  /-- What comes out of use is hot. -/
  disabled : ∀ x, l.off x = false → l'.off x = true →
    (l.reading x).reaches l.settings.high = true
  /-- What comes into use is cool, but a bank that recovers may be without a measurement. -/
  enabled : ∀ x, l.off x = true → l'.off x = false →
    (l.reading x).below l.settings.cool = true ∨
      (l.reading x).isNaN = true ∧ ∃ id, x = .bank id ∧ t = .recoverBank id
  /-- What goes home, and what makes way for it, is cool or without a measurement. -/
  returned : ∀ x, t.relieves? = none → t.Concerns x →
    l'.mapping.placeOf x ≠ l.mapping.placeOf x →
      (l.reading x).below l.settings.cool = true ∨ (l.reading x).isNaN = true
  /-- What is relieved is hot or without a measurement, and its partner is cool. -/
  relieved : ∀ x y, t.relieves? = some x → t.Concerns y →
    l'.mapping.placeOf y ≠ l.mapping.placeOf y →
      if y = x then (l.reading x).reaches l.settings.high = true ∨ (l.reading x).isNaN = true
      else (l.reading y).below l.settings.cool = true
  /-- So it is with rows that move apart from their banks, but they return to cool places only. -/
  rows : ∀ row id, l'.mapping.physicalOf id = l.mapping.physicalOf id →
    l'.mapping.physicalOfRow row id ≠ l.mapping.physicalOfRow row id →
      (t = .recoverRows ∧
        (l.ledger.temperature (l'.mapping.physicalOfRow row id)).below l.settings.cool = true) ∨
      ∃ hot, t = .relieveBank .migrating hot ∧
        if id = hot then
          (l.temperatureOf id).reaches l.settings.high = true ∨ (l.temperatureOf id).isNaN = true
        else (l.temperatureOf id).below l.settings.cool = true

/-! ## What keeps entities in or out of use -/

theorem off_exchangeBanks (l : Layer) (q : Permutation) (a b : Nat) (c : RelocationCounts) :
    ((((l.withMapping { l.mapping with banks := q }).bankMoved a).bankMoved b).withCounts c).off =
      l.off := by
  funext x
  cases x with
  | bank id => exact bankDisabled_exchangeBanks l q a b c id
  | vault v => rfl

theorem off_vaultMoved (l : Layer) (v : Nat) : (l.vaultMoved v).off = l.off := by
  have marked := off_modifyVault (f := (·.markMoved l.epoch)) l v fun _ => rfl
  have banks := off_modifyBanks (f := Entry.invalidate) (l.modifyVault v (·.markMoved l.epoch))
    (l.geometry.bankIdsOf v) fun _ => rfl
  exact banks.trans marked

theorem RowChange.off (step : RowChange l l') : l'.off = l.off := by
  funext x
  cases x with
  | bank id => exact step.bankDisabled id
  | vault v => cases step <;> rfl

theorem rows_off (steps : ReflTransGen RowChange l l') : l'.off = l.off := by
  induction steps with
  | refl => rfl
  | tail _ step ih => exact step.off.trans ih

end Layer

namespace Epoch

open Layer

variable {e e' : Epoch} {t : Turn} {id v : Nat} {x y : Entity}

theorem recoverBank_off (h : e.layer.Sound) (id_lt : id < e.layer.geometry.totalBanks) (y : Entity) :
    (e.recoverBank id).layer.off y = e.layer.off y ∨
      y = .bank id ∧ (e.layer.temperatureOf id).reaches e.layer.settings.cool = false ∧
        (e.recoverBank id).layer.off y = false := by
  unfold recoverBank
  split
  · exact .inl rfl
  · rename_i mild
    split
    · have enabled := off_enable (x := .bank id) h id_lt y
      by_cases own : y = .bank id
      · rw [if_pos own] at enabled
        exact .inr ⟨own, by simpa using mild, enabled⟩
      · rw [if_neg own] at enabled
        exact .inl enabled
    · split
      · rcases sendBankHome_exchange h id with stays | ⟨other, q, c, _, _, _, _, _, moved⟩
        · rw [stays]
          exact .inl rfl
        · rw [moved]
          exact .inl (congrFun (off_exchangeBanks e.layer q id other c) y)
      · exact .inl rfl

theorem vaultsMoved_off (e : Epoch) (v w : Nat) : (e.vaultsMoved v w).layer.off = e.layer.off := by
  have first : (e.vaultMoved v).layer.off = e.layer.off := off_vaultMoved e.layer v
  have second : (e.vaultsMoved v w).layer.off = (e.vaultMoved v).layer.off :=
    off_vaultMoved (e.vaultMoved v).layer w
  exact second.trans first

theorem recoverVault_off (e : Epoch) (v : Nat) : (e.recoverVault v).layer.off = e.layer.off := by
  unfold recoverVault
  split
  · unfold sendVaultHome
    dsimp only
    split
    · rfl
    · rename_i occupant _
      split
      · rfl
      · split
        · rename_i q _
          have moved := vaultsMoved_off (e.withMapping { e.layer.mapping with vaults := q }) v occupant
          -- What is left are counts and a report.
          generalize (e.withMapping _).vaultsMoved v occupant = e' at moved ⊢
          exact moved
        · rfl
  · rfl

theorem swapVaults_off (e : Epoch) (v w : Nat) : (e.swapVaults v w).layer.off = e.layer.off := by
  unfold swapVaults
  dsimp only
  split
  · rfl
  · rename_i q _
    have moved := vaultsMoved_off (e.withMapping { e.layer.mapping with vaults := q }) v w
    generalize (e.withMapping _).vaultsMoved v w = e' at moved ⊢
    exact moved

theorem relieveVault_off (e : Epoch) (v : Nat) : (e.relieveVault v).layer.off = e.layer.off := by
  unfold relieveVault
  split
  · cases e.vaultTarget? v with
    | none => rfl
    | some target => exact swapVaults_off e v _
  · rfl

/-- A bank that comes out of use in the turn that relieves it is dangerously hot. -/
theorem relieveBank_off (h : e.layer.Sound) (relief : Relief)
    (id_lt : id < e.layer.geometry.totalBanks) (y : Entity) :
    (relieveBank relief e id).layer.off y = e.layer.off y ∨
      y = .bank id ∧ (e.layer.temperatureOf id).reaches e.layer.settings.dangerous = true ∧
        (relieveBank relief e id).layer.off y = true := by
  have outcome := relieveBank_outcome relief e id
  generalize relieveBank relief e id = e' at outcome
  cases outcome with
  | notNeeded calm => exact .inl rfl
  | borne noted needy mild => exact .inl (by rw [layer_of_noted noted])
  | givenUp noted needy dangerous =>
      rcases disableBank_layer _ id (e.layer.mapping.displaced id) with ⟨c, disabled⟩
      rw [disabled, layer_of_noted noted]
      have switched := off_modifyBank_switched (f := (·.disable (e.layer.mapping.displaced id)))
        h id_lt (fun _ => rfl) y
      by_cases own : y = .bank id
      · rw [if_pos own] at switched
        exact .inr ⟨own, dangerous, switched⟩
      · rw [if_neg own] at switched
        exact .inl switched
  | swapped target needy home found =>
      rcases swapBanks_exchange h id_lt found with ⟨_, _, q, c, _, moved⟩
      rw [moved]
      exact .inl (congrFun (off_exchangeBanks e.layer q id _ c) y)
  | migrated target needy found =>
      exact .inl (congrFun (rows_off (migrateRows_change h id_lt found _)) y)

/-- An entity comes into use or out of it in a turn of its own. -/
inductive Turned (e : Epoch) (x : Entity) (off : Bool) : Turn → Prop where
  | switched (by_reading : off = e.switches x) : Turned e x off x.switch
  | recovered (id : Nat) (own : x = .bank id) (on : off = false)
      (mild : (e.layer.reading x).reaches e.layer.settings.cool = false) :
      Turned e x off (.recoverBank id)
  | givenUp (relief : Relief) (id : Nat) (own : x = .bank id) (given : off = true)
      (dangerous : (e.layer.reading x).reaches e.layer.settings.dangerous = true) :
      Turned e x off (.relieveBank relief id)

theorem take_turned (h : e.layer.Sound) (within : t.Within e.layer.geometry)
    (changed : (e.take t).layer.off x ≠ e.layer.off x) :
    Turned e x ((e.take t).layer.off x) t := by
  have switch : ∀ y : Entity, t = y.switch → Turned e x ((e.take t).layer.off x) t := by
    rintro y rfl
    have off := (take_switched h within).off x
    by_cases own : x = y
    · subst own
      exact .switched (off.trans (if_pos rfl))
    · exact absurd (off.trans (if_neg own)) changed
  cases t with
  | switchBank id => exact switch (.bank id) rfl
  | switchVault v => exact switch (.vault v) rfl
  | recoverBank id =>
      rcases recoverBank_off h within x with same | ⟨rfl, mild, on⟩
      · exact absurd same changed
      · exact .recovered id rfl on mild
  | relieveBank relief id =>
      rcases relieveBank_off h relief within x with same | ⟨rfl, dangerous, off⟩
      · exact absurd same changed
      · exact .givenUp relief id rfl off dangerous
  | recoverVault v => exact absurd (congrFun (recoverVault_off e v) x) changed
  | relieveVault v => exact absurd (congrFun (relieveVault_off e v) x) changed
  | recoverRows => exact absurd (congrFun (rows_off (recoverRows_change h)) x) changed

theorem Turned.hot (valid : e.layer.settings.Valid) (before : e.layer.off x = false)
    (turned : Turned e x true t) : (e.layer.reading x).reaches e.layer.settings.high = true := by
  cases turned with
  | switched by_reading => simpa [switches, before] using by_reading.symm
  | recovered id own on mild => cases on
  | givenUp relief id own given dangerous => exact valid.reaches_high dangerous

theorem Turned.cool (number : e.layer.settings.cool.isNaN = false) (before : e.layer.off x = true)
    (turned : Turned e x false t) :
    (e.layer.reading x).below e.layer.settings.cool = true ∨
      (e.layer.reading x).isNaN = true ∧ ∃ id, x = .bank id ∧ t = .recoverBank id := by
  cases turned with
  | switched by_reading => exact .inl (by simpa [switches, before] using by_reading.symm)
  | recovered id own on mild =>
      exact (Celsius.below_or_isNaN number mild).imp_right fun nan => ⟨nan, id, own, rfl⟩
  | givenUp relief id own given dangerous => cases given

/-! ## Moves -/

/-- The physical vault of a vault at home is the vault itself. -/
theorem reading_home (home : e.layer.mapping.vaults.fixes v = true) :
    e.layer.reading (.vault v) = e.layer.ledger.vaultTemperature v := by
  rw [reading, Permutation.fixes_iff.1 home]
  rfl

theorem recoverVault_ready (moved : (e.recoverVault v).layer.mapping ≠ e.layer.mapping) :
    e.vaultMayGoHome v = true := by
  by_contra ready
  exact moved (by rw [recoverVault, if_neg ready])

theorem relieveVault_needy (moved : (e.relieveVault v).layer.mapping ≠ e.layer.mapping) :
    e.vaultNeedsRelief v = true := by
  by_contra needy
  exact moved (by rw [relieveVault, if_neg needy])

/-- What changes place in a turn that does not relieve is no warmer than it may be. -/
theorem take_returned (h : e.layer.Sound) (number : e.layer.settings.cool.isNaN = false)
    (within : t.Within e.layer.geometry) (recovers : t.relieves? = none) (concerns : t.Concerns x)
    (moved : (e.take t).layer.mapping.placeOf x ≠ e.layer.mapping.placeOf x) :
    (e.layer.reading x).below e.layer.settings.cool = true ∨ (e.layer.reading x).isNaN = true := by
  have ready : ∀ v, t = .recoverVault v → e.vaultMayGoHome v = true := by
    rintro v rfl
    exact recoverVault_ready fun same => moved (by rw [take, same])
  have moves := take_moves h within
  generalize e.take t = e' at moves moved
  refine Celsius.below_or_isNaN number ?_
  cases moves with
  | still same => exact absurd (by rw [same.mapping]) moved
  | returnRows only =>
      rcases only.mapping with ⟨rows, mapping⟩
      refine absurd ?_ moved
      rw [mapping]
      cases x <;> rfl
  | returnBank id other q id_lt other_lt ne away there free mild swap mapping =>
      have places := placeOf_exchangeBanks h id_lt other_lt swap mapping x
      by_cases second : x = .bank other
      · subst second
        exact mild.2
      · by_cases first : x = .bank id
        · subst first
          exact mild.1
        · rw [if_neg second, if_neg first] at places
          exact absurd places moved
  | returnVault v w q v_lt ne away there free swap mapping =>
      have mild := ready v rfl
      simp only [vaultMayGoHome, Bool.and_eq_true, Bool.not_eq_true'] at mild
      cases x with
      | bank k => cases concerns
      | vault u =>
          have places := placeOf_exchangeVaults swap mapping u
          by_cases second : u = w
          · subst second
            rw [reading, there]
            exact mild.2
          · by_cases first : u = v
            · subst first
              exact mild.1.2
            · rw [if_neg second, if_neg first] at places
              exact absurd places moved
  | swapBanks => cases recovers
  | migrateRows => cases recovers
  | swapVaults => cases recovers

/-- A bank that needs relief is not known to be cool. -/
theorem warm_of_needy (number : e.layer.settings.high.isNaN = false)
    (needy : e.bankNeedsRelief id = true) :
    (e.layer.temperatureOf id).reaches e.layer.settings.high = true ∨
      (e.layer.temperatureOf id).isNaN = true := by
  simp only [bankNeedsRelief, Bool.and_eq_true, Bool.not_eq_true'] at needy
  exact Celsius.reaches_or_isNaN number needy.2

theorem cool_of_target {atHome : Bool} {hot target : Nat} (h : e.layer.Sound)
    (found : e.bankTarget? atHome hot = some target) :
    (e.layer.temperatureOf (e.layer.mapping.logicalOf target)).below e.layer.settings.cool =
      true := by
  rw [temperatureOf, h.mapping.physicalOf_logicalOf]
  exact (bankTarget?_free found).1

/-- What is relieved is not known to be cool, and its partner is. -/
theorem take_relieved (h : e.layer.Sound) (number : e.layer.settings.high.isNaN = false)
    (within : t.Within e.layer.geometry) (relieves : t.relieves? = some x)
    (concerns : t.Concerns y)
    (moved : (e.take t).layer.mapping.placeOf y ≠ e.layer.mapping.placeOf y) :
    if y = x then
      (e.layer.reading x).reaches e.layer.settings.high = true ∨ (e.layer.reading x).isNaN = true
    else (e.layer.reading y).below e.layer.settings.cool = true := by
  have taken : ∀ v, t = .relieveVault v → e.vaultNeedsRelief v = true := by
    rintro v rfl
    exact relieveVault_needy fun same => moved (by rw [take, same])
  have moves := take_moves h within
  generalize e.take t = e' at moves moved
  cases moves with
  | still same => exact absurd (by rw [same.mapping]) moved
  | swapBanks id target q id_lt ne needy home found swap mapping =>
      have other_lt : e.layer.mapping.logicalOf target < e.layer.geometry.totalBanks :=
        (swapBanks_exchange h id_lt found).1
      have places := placeOf_exchangeBanks h id_lt other_lt swap mapping y
      cases Option.some.inj relieves
      split
      · exact warm_of_needy number needy
      · rename_i not_first
        by_cases second : y = .bank (e.layer.mapping.logicalOf target)
        · subst second
          exact cool_of_target h found
        · rw [if_neg second, if_neg not_first] at places
          exact absurd places moved
  | swapVaults v w q v_lt ne home free cool swap mapping =>
      have needy := taken v rfl
      simp only [vaultNeedsRelief, Bool.and_eq_true, Bool.not_eq_true'] at needy
      cases Option.some.inj relieves
      split
      · rw [reading_home home.1]
        exact Celsius.reaches_or_isNaN number needy.2
      · rename_i not_first
        cases y with
        | bank k => cases concerns
        | vault u =>
            have places := placeOf_exchangeVaults swap mapping u
            by_cases second : u = w
            · subst second
              rw [reading_home home.2]
              exact cool
            · have apart : u ≠ v := fun same => not_first (congrArg Entity.vault same)
              rw [if_neg second, if_neg apart] at places
              exact absurd places moved
  | migrateRows id target rows id_lt ne needy found mapping =>
      rcases mapping with ⟨rows, mapping⟩
      refine absurd ?_ moved
      rw [mapping]
      cases y <;> rfl
  | returnBank => cases relieves
  | returnVault => cases relieves
  | returnRows => cases relieves

/-- A row that changes place apart from its bank does so in one of two kinds of turns. -/
theorem take_rows_moved (h : e.layer.Sound) (distinct : e.layer.RowsDistinct)
    (number : e.layer.settings.high.isNaN = false) (within : t.Within e.layer.geometry)
    {row k : Nat} (stays : (e.take t).layer.mapping.physicalOf k = e.layer.mapping.physicalOf k)
    (moved : (e.take t).layer.mapping.physicalOfRow row k ≠
      e.layer.mapping.physicalOfRow row k) :
    (t = .recoverRows ∧
      (e.layer.ledger.temperature ((e.take t).layer.mapping.physicalOfRow row k)).below
        e.layer.settings.cool = true) ∨
      ∃ hot, t = .relieveBank .migrating hot ∧
        if k = hot then
          (e.layer.temperatureOf k).reaches e.layer.settings.high = true ∨
            (e.layer.temperatureOf k).isNaN = true
        else (e.layer.temperatureOf k).below e.layer.settings.cool = true := by
  have whole : ¬t.Whole := by
    intro whole
    refine moved ?_
    simp only [Mapping.physicalOfRow, Mapping.redirect, take_rows whole, stays]
  cases t with
  | recoverRows =>
      have frame := (Change.rows (recoverRows_change h)).frame
      have cool := (recoverRows_returns h).cool row k moved
      rw [frame.ledger, frame.settings] at cool
      exact .inl ⟨rfl, cool⟩
  | relieveBank relief id =>
      cases relief with
      | swapping => exact absurd trivial whole
      | migrating =>
          refine .inr ⟨id, rfl, ?_⟩
          have outcome := relieveBank_outcome .migrating e id
          rw [take] at moved
          generalize relieveBank .migrating e id = e' at outcome moved
          cases outcome with
          | notNeeded calm => exact absurd rfl moved
          | borne noted needy mild => exact absurd (by rw [layer_of_noted noted]) moved
          | givenUp noted needy dangerous =>
              rcases disableBank_layer _ id (e.layer.mapping.displaced id) with ⟨c, disabled⟩
              rw [disabled, layer_of_noted noted] at moved
              exact absurd rfl moved
          | migrated target needy found =>
              have exchange := migrateRows_exchange h distinct within needy found
              have places := exchange.places row k
              split
              · rename_i own
                rw [own]
                exact warm_of_needy number needy
              · rename_i not_hot
                by_cases partner : k = e.layer.mapping.logicalOf target
                · rw [partner]
                  exact exchange.cool
                · rw [if_neg partner, if_neg not_hot, ite_self] at places
                  exact absurd places moved
  | switchBank | switchVault | recoverBank | recoverVault | relieveVault =>
      exact absurd trivial whole

theorem take_justified (h : e.layer.Sound) (distinct : e.layer.RowsDistinct)
    (valid : e.layer.settings.Valid) (within : t.Within e.layer.geometry) :
    Justified t e.layer (e.take t).layer := by
  have high := Celsius.isNaN_of_isFinite (valid.finite e.layer.settings.high List.mem_cons_self)
  have cool := Celsius.isNaN_of_isFinite
    (valid.finite e.layer.settings.cool (by simp [RelocationSettings.temperatures]))
  constructor
  · intro x before after
    have turned := take_turned (x := x) h within (by simp [before, after])
    exact (after ▸ turned).hot valid before
  · intro x before after
    have turned := take_turned (x := x) h within (by simp [before, after])
    exact (after ▸ turned).cool cool before
  · exact fun x recovers concerns moved => take_returned h cool within recovers concerns moved
  · exact fun x y relieves concerns moved => take_relieved h high within relieves concerns moved
  · exact fun row k stays moved => take_rows_moved h distinct high within stays moved

end Epoch

namespace Layer

/-- With valid settings, in every run and every turn of the next epoch, whatever readings there are,
NaN among them: what is switched off is hot, partners are cool, and what is done to an entity without
a measurement is to recover it or to relieve it. -/
theorem run_justified {s : Settings} (valid : s.check = .ok ()) (ops : List Operation) :
    let l := (ofSettings s.relocation (.ofSettings s.stack)).run ops
    ∀ n t, l.turns[n]? = some t → Justified t (l.stage n) (l.stage (n + 1)) := by
  intro l n t next
  have settings := (Settings.check_eq_ok_iff.1 valid).relocation
  have under : l.Under s.relocation (.ofSettings s.stack) := (ofSettings_under _ _).run ops
  have distinct : l.RowsDistinct := run_rowsDistinct _ _ ops
  have start : l.nextEpoch.layer.RowsDistinct := distinct
  have after : l.stage (n + 1) = ((l.epochAt n).take t).layer :=
    congrArg Epoch.layer (epochAt_succ next)
  rw [after]
  refine Epoch.take_justified (e := l.epochAt n) (stage_sound under.sound n)
    (start.ages (changes_ages (stage_changes under.sound n))) ?_ (stage_within under.sound next)
  have same : (l.epochAt n).layer.settings = s.relocation := (under.stage n).settings
  rwa [same]

/-- A bank without a measurement changes place, with one that is cool. -/
theorem run_justified_partner :
    let s := Settings.twoBanks .swap
    let l := (ofSettings s.relocation (.ofSettings s.stack)).run [.setTemperature ⟨0, 0⟩ .none]
    s.check = .ok () ∧ l.turns[2]? = some (.relieveBank .swapping 0) ∧
      ((l.stage 2).reading (.bank 0)).isNaN = true ∧
      ((l.stage 2).reading (.bank 1)).below (l.stage 2).settings.cool = true := by
  intro s l
  have valid : s.check = .ok () := by decide +kernel
  have turn : l.turns[2]? = some (.relieveBank .swapping 0) := by decide +kernel
  have nan : ((l.stage 2).reading (.bank 0)).isNaN = true := by decide +kernel
  have moved : (l.stage 3).mapping.placeOf (.bank 1) ≠ (l.stage 2).mapping.placeOf (.bank 1) := by
    decide +kernel
  have justified : Justified (.relieveBank .swapping 0) (l.stage 2) (l.stage 3) :=
    run_justified valid [.setTemperature ⟨0, 0⟩ .none] 2 _ turn
  have cool := justified.relieved (.bank 0) (.bank 1) rfl trivial moved
  rw [if_neg (by decide)] at cool
  exact ⟨valid, turn, nan, cool⟩

/-- So a bank whose reading is NaN is relieved, although it does not reach the upper threshold. -/
theorem unmeasured_bank_moves :
    let s := Settings.twoBanks .swap
    let l := (ofSettings s.relocation (.ofSettings s.stack)).run [.setTemperature ⟨0, 0⟩ .none]
    (l.temperatureOf 0).isNaN = true ∧ (l.temperatureOf 0).reaches s.relocation.high = false ∧
      l.runEpoch.1.bankSwaps = [(⟨0, 0⟩, ⟨0, 1⟩)] := by
  decide +kernel

end Layer

end StackedCache
