import StackedCache.Proofs.Relocation.Mapping
import StackedCache.Proofs.Relocation.Turn

/-!
# Changes of the relocation layer

A `Change` is what a decision does to the layer, apart from the counts.  Sending home and swapping
are the same change, and so is every exchange of rows, so there are fewer changes than decisions.

In a sound layer every turn of an epoch is one change, `take_change`, and every change keeps the
layer sound.  Other properties of epochs are proved by the same cases.
-/

namespace StackedCache

open Relation (ReflTransGen)

namespace Layer

variable {l l' : Layer} {id v : Nat} {f : Entry → Entry}

/-! ## Entries of a changed layer -/

theorem bank?_modifyBank (l : Layer) (i id : Nat) (f : Entry → Entry) :
    (l.modifyBank i f).bank? id = if i = id then (l.bank? id).map f else l.bank? id := by
  simp only [modifyBank, bank?, Array.getElem?_modify]

theorem vault?_modifyVault (l : Layer) (v w : Nat) (f : Entry → Entry) :
    (l.modifyVault v f).vault? w = if v = w then (l.vault? w).map f else l.vault? w := by
  simp only [modifyVault, vault?, Array.getElem?_modify]

@[simp] theorem bank?_resetCounts (l : Layer) (id : Nat) :
    l.resetCounts.bank? id = (l.bank? id).map Entry.resetCounts :=
  Array.getElem?_map

@[simp] theorem vault?_resetCounts (l : Layer) (v : Nat) :
    l.resetCounts.vault? v = (l.vault? v).map Entry.resetCounts :=
  Array.getElem?_map

theorem bank?_settle (l : Layer) (id : Nat) :
    l.settle.bank? id = (l.bank? id).map Entry.settle :=
  Array.getElem?_map

/-- Changing several banks changes their entries only. -/
theorem modifyBanks_eq (l : Layer) (ids : List Nat) (f : Entry → Entry) :
    l.modifyBanks ids f = { l with banks := (l.modifyBanks ids f).banks } := by
  induction ids generalizing l with
  | nil => rfl
  | cons i ids ih => exact ih (l.modifyBank i f)

@[simp] theorem modifyBanks_mapping (l : Layer) (ids : List Nat) (f : Entry → Entry) :
    (l.modifyBanks ids f).mapping = l.mapping := by
  rw [modifyBanks_eq]

@[simp] theorem modifyBanks_vaults (l : Layer) (ids : List Nat) (f : Entry → Entry) :
    (l.modifyBanks ids f).vaults = l.vaults := by
  rw [modifyBanks_eq]

theorem bank?_modifyBanks {ids : List Nat} (nodup : ids.Nodup) (l : Layer) (id : Nat)
    (f : Entry → Entry) :
    (l.modifyBanks ids f).bank? id = if id ∈ ids then (l.bank? id).map f else l.bank? id := by
  induction ids generalizing l with
  | nil => rfl
  | cons i ids ih =>
      rw [List.nodup_cons] at nodup
      have rest := ih nodup.2 (l.modifyBank i f)
      rw [bank?_modifyBank] at rest
      apply rest.trans
      -- A bank listed twice would be changed twice, which `nodup` rules out.
      by_cases hi : i = id
      · subst hi
        simp [nodup.1]
      · simp [hi, eq_comm (a := id)]

/-! ## Changes -/

/-- The layer with another mapping. -/
def withMapping (l : Layer) (m : Mapping) : Layer := { l with mapping := m }

def withCounts (l : Layer) (c : RelocationCounts) : Layer := { l with counts := c }

/-- A bank has moved and its data has not. -/
def bankMoved (l : Layer) (id : Nat) : Layer :=
  l.modifyBank id fun entry => entry.invalidate.markMoved l.epoch

/-- A vault has moved and the data of its banks has not. -/
def vaultMoved (l : Layer) (v : Nat) : Layer :=
  (l.modifyVault v (·.markMoved l.epoch)).modifyBanks (l.geometry.bankIdsOf v) Entry.invalidate

@[simp] theorem vaultMoved_mapping (l : Layer) (v : Nat) : (l.vaultMoved v).mapping = l.mapping :=
  modifyBanks_mapping _ _ _

/-- The same row of two logical banks has moved. -/
def rowMoved (l : Layer) (row a b : Nat) : Layer :=
  (l.modifyBank a (·.migrateRow row)).modifyBank b (·.migrateRow row)

/-- A change of single rows, or of nothing but counts and cooldowns. -/
inductive RowChange (l : Layer) : Layer → Prop where
  | counts (c : RelocationCounts) : RowChange l (l.withCounts c)
  /-- Two physical banks exchange a row. -/
  | exchange (row x y : Nat) (q : Permutation) (x_lt : x < l.geometry.totalBanks)
      (y_lt : y < l.geometry.totalBanks) (swap : (l.mapping.rowPermutation row).swap? x y = some q) :
      RowChange l
        ((l.withMapping { l.mapping with rows := l.mapping.rows.insert row q }).rowMoved row
          (l.mapping.logicalOf x) (l.mapping.logicalOf y))
  | markMoved (id : Nat) : RowChange l (l.modifyBank id (·.markMoved l.epoch))
  | dropIdentities :
      RowChange l
        (l.withMapping
          { l.mapping with rows := l.mapping.rows.filter fun entry => !entry.2.isIdentity })

/-- What one turn of an epoch does to the layer. -/
inductive Change (l : Layer) : Layer → Prop where
  | rows {l' : Layer} (steps : ReflTransGen RowChange l l') : Change l l'
  | enableBank (id : Nat) (off : l.bankDisabled id = true) (c : RelocationCounts) :
      Change l ((l.modifyBank id Entry.enable).withCounts c)
  | disableBank (id : Nat) (double : Bool) (id_lt : id < l.geometry.totalBanks)
      (on : l.bankDisabled id = false) (c : RelocationCounts) :
      Change l ((l.modifyBank id (·.disable double)).withCounts c)
  | enableVault (v : Nat) (off : l.vaultDisabled v = true) (c : RelocationCounts) :
      Change l ((l.modifyVault v Entry.enable).withCounts c)
  | disableVault (v : Nat) (v_lt : v < l.geometry.vaults) (on : l.vaultDisabled v = false)
      (c : RelocationCounts) :
      Change l
        (((l.modifyVault v (·.disable false)).modifyBanks (l.geometry.bankIdsOf v)
          Entry.invalidate).withCounts c)
  /-- Two logical banks exchange their slots. -/
  | exchangeBanks (a b : Nat) (q : Permutation) (a_lt : a < l.geometry.totalBanks)
      (b_lt : b < l.geometry.totalBanks) (ne : a ≠ b)
      (swap : l.mapping.banks.swap? (l.mapping.slotOf a) (l.mapping.slotOf b) = some q)
      (c : RelocationCounts) :
      Change l
        ((((l.withMapping { l.mapping with banks := q }).bankMoved a).bankMoved b).withCounts c)
  /-- Two logical vaults exchange their physical vaults. -/
  | exchangeVaults (v w : Nat) (q : Permutation) (v_lt : v < l.geometry.vaults)
      (w_lt : w < l.geometry.vaults) (ne : v ≠ w) (swap : l.mapping.vaults.swap? v w = some q)
      (c : RelocationCounts) :
      Change l
        ((((l.withMapping { l.mapping with vaults := q }).vaultMoved v).vaultMoved w).withCounts c)

theorem Change.stay (l : Layer) : Change l l := .rows .refl

/-! ## What no change touches -/

/-- The geometry, the settings, the temperatures and the time are the same. -/
structure SameFrame (l l' : Layer) : Prop where
  geometry : l'.geometry = l.geometry
  settings : l'.settings = l.settings
  ledger : l'.ledger = l.ledger
  epoch : l'.epoch = l.epoch

theorem SameFrame.rfl : SameFrame l l := ⟨Eq.refl _, Eq.refl _, Eq.refl _, Eq.refl _⟩

theorem SameFrame.trans {l₁ l₂ l₃ : Layer} (h : SameFrame l₁ l₂) (h' : SameFrame l₂ l₃) :
    SameFrame l₁ l₃ where
  geometry := h'.geometry.trans h.geometry
  settings := h'.settings.trans h.settings
  ledger := h'.ledger.trans h.ledger
  epoch := h'.epoch.trans h.epoch

theorem modifyBanks_frame (l : Layer) (ids : List Nat) (f : Entry → Entry) :
    SameFrame l (l.modifyBanks ids f) := by
  rw [modifyBanks_eq]
  exact ⟨rfl, rfl, rfl, rfl⟩

theorem vaultMoved_frame (l : Layer) (v : Nat) : SameFrame l (l.vaultMoved v) := by
  have marked : SameFrame l (l.modifyVault v (·.markMoved l.epoch)) := ⟨rfl, rfl, rfl, rfl⟩
  exact marked.trans (modifyBanks_frame _ _ _)

theorem withCounts_frame (l : Layer) (c : RelocationCounts) : SameFrame l (l.withCounts c) :=
  ⟨rfl, rfl, rfl, rfl⟩

theorem RowChange.frame (h : RowChange l l') : SameFrame l l' := by
  cases h <;> exact ⟨rfl, rfl, rfl, rfl⟩

theorem Change.frame (h : Change l l') : SameFrame l l' := by
  cases h with
  | rows steps =>
      induction steps with
      | refl => exact .rfl
      | tail _ step ih => exact ih.trans step.frame
  | enableBank => exact ⟨rfl, rfl, rfl, rfl⟩
  | disableBank => exact ⟨rfl, rfl, rfl, rfl⟩
  | enableVault => exact ⟨rfl, rfl, rfl, rfl⟩
  | disableVault v _ _ c =>
      have disabled : SameFrame l (l.modifyVault v (·.disable false)) := ⟨rfl, rfl, rfl, rfl⟩
      exact (disabled.trans (modifyBanks_frame _ _ _)).trans (withCounts_frame _ c)
  | exchangeBanks => exact ⟨rfl, rfl, rfl, rfl⟩
  | exchangeVaults v w q _ _ _ _ c =>
      have mapped : SameFrame l (l.withMapping { l.mapping with vaults := q }) :=
        ⟨rfl, rfl, rfl, rfl⟩
      have moved := (mapped.trans (vaultMoved_frame _ v)).trans (vaultMoved_frame _ w)
      exact moved.trans (withCounts_frame _ c)

/-! ## Soundness -/

/-- The mapping is sound, and every bank and vault has its entry. -/
structure Sound (l : Layer) : Prop where
  mapping : l.mapping.Sound
  banks_size : l.banks.size = l.geometry.totalBanks
  vaults_size : l.vaults.size = l.geometry.vaults
  ids : ∀ id entry, l.bank? id = some entry → entry.id = id

theorem ofSettings_sound (s : RelocationSettings) (g : Geometry) : (ofSettings s g).Sound where
  mapping := Mapping.identity_sound g
  banks_size := by simp [ofSettings, geometry, Mapping.identity]
  vaults_size := by simp [ofSettings, geometry, Mapping.identity]
  ids := by
    intro id entry h
    simp only [ofSettings, bank?, Array.getElem?_map, Option.map_eq_some_iff] at h
    rcases h with ⟨i, hi, rfl⟩
    rcases Array.getElem?_eq_some_iff.1 hi with ⟨_, rfl⟩
    simp [Entry.fresh]

namespace Sound

theorem exists_bank (h : l.Sound) (hid : id < l.geometry.totalBanks) :
    ∃ entry, l.bank? id = some entry :=
  ⟨_, Array.getElem?_eq_getElem (h.banks_size ▸ hid)⟩

theorem exists_vault (h : l.Sound) (hv : v < l.geometry.vaults) :
    ∃ entry, l.vault? v = some entry :=
  ⟨_, Array.getElem?_eq_getElem (h.vaults_size ▸ hv)⟩

theorem modifyBank (h : l.Sound)
    (hf : ∀ entry, (f entry).id = entry.id := by exact fun _ => rfl) :
    (l.modifyBank id f).Sound where
  mapping := h.mapping
  banks_size := (Array.size_modify ..).trans h.banks_size
  vaults_size := h.vaults_size
  ids := by
    intro i entry hi
    rw [bank?_modifyBank] at hi
    split at hi
    · rcases Option.map_eq_some_iff.1 hi with ⟨old, hold, rfl⟩
      exact (hf old).trans (h.ids i old hold)
    · exact h.ids i entry hi

theorem modifyBanks (h : l.Sound) (ids : List Nat)
    (hf : ∀ entry, (f entry).id = entry.id := by exact fun _ => rfl) :
    (l.modifyBanks ids f).Sound := by
  induction ids generalizing l with
  | nil => exact h
  | cons i ids ih => exact ih (h.modifyBank hf)

theorem modifyVault (h : l.Sound) : (l.modifyVault v f).Sound where
  mapping := h.mapping
  banks_size := h.banks_size
  vaults_size := (Array.size_modify ..).trans h.vaults_size
  ids := h.ids

theorem withMapping (h : l.Sound) {m : Mapping} (hm : m.Sound) (hg : m.geometry = l.geometry) :
    (l.withMapping m).Sound where
  mapping := hm
  banks_size := h.banks_size.trans (congrArg Geometry.totalBanks hg).symm
  vaults_size := h.vaults_size.trans (congrArg Geometry.vaults hg).symm
  ids := h.ids

theorem withCounts (h : l.Sound) (c : RelocationCounts) : (l.withCounts c).Sound :=
  ⟨h.mapping, h.banks_size, h.vaults_size, h.ids⟩

theorem bankMoved (h : l.Sound) : (l.bankMoved id).Sound := h.modifyBank

theorem vaultMoved (h : l.Sound) : (l.vaultMoved v).Sound :=
  h.modifyVault.modifyBanks _

end Sound

theorem migrateRow_id (e : Entry) (row : Nat) : (e.migrateRow row).id = e.id := by
  unfold Entry.migrateRow
  split <;> rfl

theorem RowChange.sound (h : l.Sound) (step : RowChange l l') : l'.Sound := by
  cases step with
  | counts c => exact h.withCounts c
  | exchange row x y q x_lt y_lt swap =>
      have hq : q.Inverse l.geometry.totalBanks := (h.mapping.rowPermutation_inverse row).swap? swap
      have mapped : Mapping.Sound { l.mapping with rows := l.mapping.rows.insert row q } :=
        h.mapping.withRow hq
      have moved := h.withMapping mapped rfl
      exact (moved.modifyBank (migrateRow_id · row)).modifyBank (migrateRow_id · row)
  | markMoved => exact h.modifyBank
  | dropIdentities => exact h.withMapping h.mapping.dropIdentities rfl

/-- Every change keeps the layer sound. -/
theorem Change.sound (h : l.Sound) (change : Change l l') : l'.Sound := by
  cases change with
  | rows steps =>
      induction steps with
      | refl => exact h
      | tail _ step ih => exact step.sound ih
  | enableBank id off c => exact h.modifyBank.withCounts c
  | disableBank id double id_lt on c => exact h.modifyBank.withCounts c
  | enableVault v off c => exact h.modifyVault.withCounts c
  | disableVault v v_lt on c =>
      exact (h.modifyVault.modifyBanks _).withCounts c
  | exchangeBanks a b q a_lt b_lt ne swap c =>
      have hq : q.Inverse l.geometry.totalBanks := h.mapping.banks.swap? swap
      exact ((h.withMapping (h.mapping.withBanks hq) rfl).bankMoved.bankMoved).withCounts c
  | exchangeVaults v w q v_lt w_lt ne swap c =>
      have hq : q.Inverse l.geometry.vaults := h.mapping.vaults.swap? swap
      exact ((h.withMapping (h.mapping.withVaults hq) rfl).vaultMoved.vaultMoved).withCounts c

theorem Sound.changes (h : l.Sound) (changes : ReflTransGen Change l l') : l'.Sound := by
  induction changes with
  | refl => exact h
  | tail _ change ih => exact change.sound ih

theorem changes_frame (changes : ReflTransGen Change l l') : SameFrame l l' := by
  induction changes with
  | refl => exact .rfl
  | tail _ change ih => exact ih.trans change.frame

end Layer

/-! ## Decisions as changes -/

namespace Epoch

open Layer

variable {e e' : Epoch} {id vault target : Nat}

theorem scope_lt {hot candidate : Nat} (hhot : hot < e.layer.geometry.totalBanks)
    (h : candidate ∈ e.scope hot) : candidate < e.layer.geometry.totalBanks := by
  unfold Epoch.scope at h
  split at h
  · exact Geometry.mem_bankIds.1 h
  · exact Geometry.lt_of_mem_bankIdsOf (Geometry.vaultOf_lt hhot) h

/-- A target for a bank's data is another bank of the stack. -/
theorem bankTarget?_range {atHome : Bool} {hot : Nat}
    (h : e.bankTarget? atHome hot = some target) (hhot : hot < e.layer.geometry.totalBanks) :
    target < e.layer.geometry.totalBanks ∧ target ≠ hot := by
  rcases List.mem_filter.1 (Celsius.coolest?_mem h) with ⟨scope, eligible⟩
  simp only [bankEligible, Bool.and_eq_true, decide_eq_true_iff] at eligible
  exact ⟨scope_lt hhot scope, eligible.1.1.1.1⟩

/-- A target for a vault's data is another vault, with its own logical vault. -/
theorem vaultTarget?_range (h : e.vaultTarget? vault = some target) :
    target < e.layer.geometry.vaults ∧ target ≠ vault ∧
      ∃ owner, e.layer.mapping.vaults.source? target = some owner ∧
        e.layer.mapping.vaults.fixes owner = true := by
  rcases List.mem_filter.1 (Celsius.coolest?_mem h) with ⟨range, eligible⟩
  simp only [vaultEligible, Bool.and_eq_true, decide_eq_true_iff, Option.any_eq_true] at eligible
  rcases eligible with ⟨⟨ne, _⟩, owner, hsource, ⟨hfixes, _⟩, _⟩
  exact ⟨List.mem_range.1 range, ne, owner, hsource, hfixes⟩

/-- A bank sent home exchanges its slot with the bank on its home, which is not frozen. -/
theorem sendBankHome_exchange (h : e.layer.Sound) (id : Nat) :
    e.sendBankHome id = e ∨
      ∃ other q c, other < e.layer.geometry.totalBanks ∧ id ≠ other ∧
        e.layer.bankFrozen other = false ∧
        e.layer.mapping.physicalOf other = e.layer.mapping.slotOf id ∧
        e.layer.mapping.banks.swap? (e.layer.mapping.slotOf id) (e.layer.mapping.slotOf other) =
          some q ∧
        (e.sendBankHome id).layer =
          (((e.layer.withMapping { e.layer.mapping with banks := q }).bankMoved id).bankMoved
            other).withCounts c := by
  -- Each way of not finding the owner of the slot leaves the epoch alone.
  unfold sendBankHome
  dsimp only
  split
  · exact .inl rfl
  · rename_i occupant hsource
    split
    · exact .inl rfl
    · rename_i free
      split
      · rename_i o q hsend
        rcases Permutation.sendHome?_eq_some_iff.1 hsend with ⟨hfixes, hocc, hswap⟩
        cases hsource.symm.trans hocc
        have hlt := (h.mapping.banks.lt_of_source? hsource).1
        -- The exchange is one of slots, and the occupant is the slot of its owner.
        have hslot := h.mapping.slotOf_ownerOfSlot occupant
        have htarget := (h.mapping.banks.agree occupant _).2 hocc
        refine .inr ⟨e.layer.mapping.ownerOfSlot occupant, q, _, h.mapping.ownerOfSlot_lt hlt, ?_,
          by simpa using free, ?_, by rwa [hslot], rfl⟩
        · -- Were both the same bank, its slot would be at home already.
          intro heq
          rw [← heq] at hslot
          exact h.mapping.banks.occupant_ne hfixes hocc hslot.symm
        · simp [Mapping.physicalOf, hslot, htarget]
      · exact .inl rfl

theorem sendBankHome_change (h : e.layer.Sound) (range : id < e.layer.geometry.totalBanks) :
    Change e.layer (e.sendBankHome id).layer := by
  rcases sendBankHome_exchange h id with stays | ⟨other, q, c, other_lt, ne, _, _, swap, moved⟩
  · rw [stays]
    exact .stay _
  · rw [moved]
    exact .exchangeBanks id other q range other_lt ne swap c

theorem sendVaultHome_change (h : e.layer.Sound) :
    Change e.layer (e.sendVaultHome vault).layer := by
  -- As for banks, but a logical vault is its own slot.
  unfold sendVaultHome
  dsimp only
  split
  · exact .stay _
  · rename_i occupant hsource
    split
    · exact .stay _
    · split
      · rename_i o q hsend
        rcases Permutation.sendHome?_eq_some_iff.1 hsend with ⟨hfixes, hocc, hswap⟩
        cases hsource.symm.trans hocc
        rcases h.mapping.vaults.lt_of_source? hsource with ⟨hlt, range⟩
        have hne := h.mapping.vaults.occupant_ne hfixes hocc
        exact .exchangeVaults vault occupant q range hlt hne.symm hswap _
      · exact .stay _

theorem swapVaults_change (h : e.layer.Sound) (range : vault < e.layer.geometry.vaults)
    (found : e.vaultTarget? vault = some target) :
    Change e.layer
      (e.swapVaults vault ((e.layer.mapping.vaults.source? target).getD target)).layer := by
  rcases vaultTarget?_range found with ⟨_, hne, owner, hsource, hfixes⟩
  -- The logical vault on the target is at home, so it is the target.
  have howner : owner = target := by
    have ht := Permutation.fixes_iff.1 hfixes
    have hs := (h.mapping.vaults.agree owner target).2 hsource
    exact Option.some.inj (ht.symm.trans hs)
  subst howner
  simp only [hsource, Option.getD_some]
  have hlt := (h.mapping.vaults.lt_of_source? hsource).1
  rcases Permutation.exists_swap? h.mapping.vaults range hlt with ⟨q, hswap⟩
  simp only [swapVaults, hswap]
  exact .exchangeVaults vault owner q range hlt hne.symm hswap _

/-- A bank that changes place exchanges its slot with the owner of the target. -/
theorem swapBanks_exchange (h : e.layer.Sound) (range : id < e.layer.geometry.totalBanks)
    {atHome : Bool} (found : e.bankTarget? atHome (e.layer.mapping.physicalOf id) = some target) :
    let partner := e.layer.mapping.logicalOf target
    partner < e.layer.geometry.totalBanks ∧ id ≠ partner ∧
      ∃ q c,
        e.layer.mapping.banks.swap? (e.layer.mapping.slotOf id) (e.layer.mapping.slotOf partner) =
          some q ∧
        (e.swapBanks id partner).layer =
          (((e.layer.withMapping { e.layer.mapping with banks := q }).bankMoved id).bankMoved
            partner).withCounts c := by
  intro partner
  rcases bankTarget?_range found (h.mapping.physicalOf_lt range) with ⟨htarget, hne⟩
  have hpartner : partner < e.layer.geometry.totalBanks := h.mapping.logicalOf_lt htarget
  obtain ⟨q, hswap⟩ := Permutation.exists_swap? h.mapping.banks (h.mapping.slotOf_lt range)
    (h.mapping.slotOf_lt hpartner)
  refine ⟨hpartner, ?_, q, _, hswap, by simp only [swapBanks, hswap]; rfl⟩
  -- The owner of the target is another bank, since the target is another physical bank.
  intro heq
  rw [heq, h.mapping.physicalOf_logicalOf] at hne
  exact hne rfl

theorem swapBanks_change (h : e.layer.Sound) (range : id < e.layer.geometry.totalBanks)
    {atHome : Bool} (found : e.bankTarget? atHome (e.layer.mapping.physicalOf id) = some target) :
    Change e.layer (e.swapBanks id (e.layer.mapping.logicalOf target)).layer := by
  rcases swapBanks_exchange h range found with ⟨partner_lt, ne, q, c, swap, moved⟩
  rw [moved]
  exact .exchangeBanks id _ q range partner_lt ne swap c

/-! ### Rows -/

/-- One row of two banks is exchanged, and the rest of the mapping stays. -/
theorem exchangeRow_change {partner physical : Nat} (row : Nat) (h : e.layer.Sound)
    (physical_lt : physical < e.layer.geometry.totalBanks)
    (target_lt : target < e.layer.geometry.totalBanks)
    (owner : e.layer.mapping.logicalOf physical = id)
    (other : e.layer.mapping.logicalOf target = partner) :
    ReflTransGen RowChange e.layer (exchangeRow id partner physical target e row).layer ∧
      (exchangeRow id partner physical target e row).layer.mapping.logicalOf =
        e.layer.mapping.logicalOf := by
  rcases Permutation.exists_swap? (h.mapping.rowPermutation_inverse row) physical_lt target_lt with
    ⟨q, hswap⟩
  simp only [exchangeRow, hswap]
  have exchanged := RowChange.exchange row physical target q physical_lt target_lt hswap
  rw [owner, other] at exchanged
  exact ⟨.tail (.single exchanged) (.counts _), rfl⟩

theorem through_exchangeRow_change {partner physical : Nat} (rows : List Nat) (h : e.layer.Sound)
    (physical_lt : physical < e.layer.geometry.totalBanks)
    (target_lt : target < e.layer.geometry.totalBanks)
    (owner : e.layer.mapping.logicalOf physical = id)
    (other : e.layer.mapping.logicalOf target = partner) :
    ReflTransGen RowChange e.layer
      (e.through rows (exchangeRow id partner physical target)).layer := by
  -- Rows redirect physical banks only, so the owners are the same after each exchange.
  induction rows generalizing e with
  | nil => exact .refl
  | cons row rows ih =>
      rcases exchangeRow_change row h physical_lt target_lt owner other with ⟨change, same⟩
      have hg := (Change.rows change).frame.geometry
      refine change.trans (ih ((Change.rows change).sound h) ?_ ?_ ?_ ?_)
      · rwa [hg]
      · rwa [hg]
      · rwa [same]
      · rwa [same]

theorem migrateRows_change {atHome : Bool} (h : e.layer.Sound)
    (range : id < e.layer.geometry.totalBanks)
    (found : e.bankTarget? atHome (e.layer.mapping.physicalOf id) = some target) (rows : List Nat) :
    ReflTransGen RowChange e.layer
      (e.migrateRows id (e.layer.mapping.logicalOf target) (e.layer.mapping.physicalOf id) target
        rows).layer := by
  have physical_lt := h.mapping.physicalOf_lt range
  have exchanged := through_exchangeRow_change rows h physical_lt
    (bankTarget?_range found physical_lt).1 (h.mapping.logicalOf_physicalOf id) rfl
  exact (exchanged.tail (.markMoved id)).tail (.markMoved (e.layer.mapping.logicalOf target))

/-- A row can return to a bank if it has a permutation and another bank's row is there. -/
theorem rowMove?_eq_some_iff {row home : Nat} {move : RowMove} :
    e.rowMove? row home = some move ↔
      ∃ p, e.layer.mapping.rows.find? row = some p ∧ move.home = home ∧ move.occupant ≠ home ∧
        p.source? home = some move.occupant ∧ p.target? home = some move.place := by
  rcases move with ⟨h, o, t⟩
  simp only [rowMove?, Option.bind_eq_bind, Option.bind_eq_some_iff]
  constructor
  · rintro ⟨p, hp, occupant, hocc, place, hplace, hmove⟩
    split at hmove
    · cases hmove
    · rename_i hne
      cases hmove
      exact ⟨p, hp, rfl, hne, hocc, hplace⟩
  · rintro ⟨p, hp, rfl, hne, hocc, hplace⟩
    exact ⟨p, hp, o, hocc, t, hplace, by simp [hne]⟩

/-- An attempt to return a row leaves everything as it is, or two physical banks exchange the row. -/
theorem returnRow_cases (r : RowReturn) (row home : Nat) :
    returnRow row r home = r ∨
      ∃ move back c, r.epoch.rowMove? row home = some move ∧ r.epoch.rowMayReturn move = true ∧
        (r.epoch.layer.mapping.rowPermutation row).sendHome? home = some (move.occupant, back) ∧
        (returnRow row r home).epoch =
          { r.epoch with
            layer := ((r.epoch.layer.withMapping { r.epoch.layer.mapping with
                rows := r.epoch.layer.mapping.rows.insert row back }).rowMoved row
              (r.epoch.layer.mapping.logicalOf home)
              (r.epoch.layer.mapping.logicalOf move.occupant)).withCounts c } := by
  unfold returnRow
  dsimp only
  split
  · exact .inl rfl
  · rename_i move found
    split
    · rename_i ready
      split
      · exact .inl rfl
      · rename_i o back sent
        -- The move and the exchange look up the same permutation, so they agree on the occupant.
        rcases rowMove?_eq_some_iff.1 found with ⟨p, known, _, _, source, _⟩
        have same : r.epoch.layer.mapping.rowPermutation row = p := by
          simp [Mapping.rowPermutation, known]
        have occupied := (Permutation.sendHome?_eq_some_iff.1 sent).2.1
        rw [same, source] at occupied
        cases occupied
        refine .inr ?_
        split
        · exact ⟨move, back, _, found, ready, sent, rfl⟩
        · exact ⟨move, back, _, found, ready, sent, rfl⟩
    · exact .inl rfl

theorem returnRow_change {row home : Nat} {r : RowReturn} (h : r.epoch.layer.Sound) :
    ReflTransGen RowChange r.epoch.layer (returnRow row r home).epoch.layer := by
  rcases returnRow_cases r row home with same | ⟨move, back, c, _, _, sent, moved⟩
  · rw [same]
  · rcases Permutation.sendHome?_eq_some_iff.1 sent with ⟨_, occupied, swap⟩
    rcases (h.mapping.rowPermutation_inverse row).lt_of_source? occupied with
      ⟨occupant_lt, home_lt⟩
    have exchanged := RowChange.exchange row _ _ back home_lt occupant_lt swap
    rw [moved]
    exact .tail (.single exchanged) (.counts c)

theorem RowStep.change (h : e.layer.Sound) (step : RowStep e e') :
    ReflTransGen RowChange e.layer e'.layer := by
  cases step with
  | returnRow row home owners => exact returnRow_change (r := ⟨e, owners⟩) h
  | dropIdentities => exact .single .dropIdentities
  | report f => exact .refl

/-! ### Turns -/

theorem Decision.change (h : e.layer.Sound) (decision : Decision e e') :
    Change e.layer e'.layer := by
  cases decision with
  | stay => exact .stay _
  | enableBank id range off mild => exact .enableBank id off _
  | switchBankOff id range on hot => exact .disableBank id false range on _
  | giveBankUp id range needy dangerous =>
      have on : e.layer.bankDisabled id = false := by
        simp only [bankNeedsRelief, idDisabled, Bool.and_eq_true, Bool.not_eq_true',
          Bool.or_eq_false_iff] at needy
        exact needy.1.1.1.1
      -- Both branches differ in the counts only.
      unfold disableBank
      split
      · exact .disableBank id _ range on _
      · exact .disableBank id _ range on _
  | enableVault vault range off cool => exact .enableVault vault off _
  | disableVault vault range on hot => exact .disableVault vault range on _
  | sendBankHome id range on mild ready => exact sendBankHome_change h range
  | sendVaultHome vault range ready => exact sendVaultHome_change h
  | swapVaults vault target range needy found => exact swapVaults_change h range found
  | swapBanks id target range needy home found => exact swapBanks_change h range found
  | migrateRows id target range needy found rows => exact .rows (migrateRows_change h range found _)

theorem recoverRows_change (h : e.layer.Sound) :
    ReflTransGen RowChange e.layer e.recoverRows.layer := by
  have chain : ∀ {e'}, ReflTransGen RowStep e e' →
      ReflTransGen RowChange e.layer e'.layer ∧ e'.layer.Sound := by
    -- Soundness is carried along, since each step needs it where it starts.
    intro e' steps
    induction steps with
    | refl => exact ⟨.refl, h⟩
    | tail _ step ih =>
        have change := RowStep.change ih.2 step
        exact ⟨ih.1.trans change, (Change.rows change).sound ih.2⟩
  exact (chain (recoverRows_steps e)).1

/-- Every turn is one change of the layer. -/
theorem take_change {t : Turn} (h : e.layer.Sound) (within : t.Within e.layer.geometry) :
    Change e.layer (e.take t).layer := by
  -- The return of rows is the one turn of many steps.
  by_cases rows : t = .recoverRows
  · subst rows
    exact .rows (recoverRows_change h)
  · rcases take_decides within rows with ⟨faults, decision⟩
    exact decision.change (e := e.noting faults) h

end Epoch

end StackedCache
