import Mathlib.Data.List.Induction
import StackedCache.Proofs.Relocation.Reach

/-!
# The journal of relocation

Between two settlements the entries of the banks are a journal of what the cache has to do: a bank
is *dropped* if its data may not be used any more, and a row of a bank is *listed* if it has moved.

The journal is complete: whatever has moved or has been disabled since the last settlement is in it.
It is also exact for dropped banks: each of them was moved or disabled by a turn of an epoch since.
-/

namespace StackedCache

open Relation (ReflTransGen)

/-! ## Entries -/

namespace Entry

/-- What an entry notes is kept by a later one, and a new disablement drops the data. -/
structure Carries (e e' : Entry) : Prop where
  dropped : e.contentValid = false → e'.contentValid = false
  listed : ∀ row ∈ e.migratedRows, row ∈ e'.migratedRows ∨ e'.contentValid = false
  disabled : e'.disabled = true → e.disabled = true ∨ e'.contentValid = false

variable {e e' e'' : Entry}

theorem Carries.refl (e : Entry) : e.Carries e := ⟨fun h => h, fun _ h => .inl h, .inl⟩

theorem Carries.trans (h : e.Carries e') (h' : e'.Carries e'') : e.Carries e'' where
  dropped := fun he => h'.dropped (h.dropped he)
  listed := fun row hrow => by
    rcases h.listed row hrow with listed | dropped
    · exact h'.listed row listed
    · exact .inr (h'.dropped dropped)
  disabled := fun he => by
    rcases h'.disabled he with disabled | dropped
    · rcases h.disabled disabled with before | dropped
      · exact .inl before
      · exact .inr (h'.dropped dropped)
    · exact .inr dropped

/-- Nothing the journal reads has changed. -/
theorem Carries.of_eq (content : e'.contentValid = e.contentValid)
    (rows : e'.migratedRows = e.migratedRows) (disabled : e'.disabled = e.disabled) :
    e.Carries e' :=
  ⟨fun h => content.trans h, fun _ h => .inl (rows ▸ h), fun h => .inl (disabled ▸ h)⟩

/-- An entry without its data carries everything. -/
theorem Carries.of_dropped (h : e'.contentValid = false) : e.Carries e' :=
  ⟨fun _ => h, fun _ _ => .inr h, fun _ => .inr h⟩

theorem carries_enable (e : Entry) : e.Carries e.enable :=
  ⟨fun h => h, fun _ h => .inl h, fun h => by cases h⟩

theorem carries_migrateRow (e : Entry) (row : Nat) : e.Carries (e.migrateRow row) := by
  unfold migrateRow
  split
  · exact ⟨fun h => h, fun r h => .inl ((mem_insertAscending row r _).2 (.inr h)), .inl⟩
  · exact .refl e

/-- A row that has moved is noted, unless all data is given up anyway. -/
theorem migrateRow_notes (e : Entry) (row : Nat) :
    row ∈ (e.migrateRow row).migratedRows ∨ (e.migrateRow row).contentValid = false := by
  unfold migrateRow
  split
  · exact .inl ((mem_insertAscending row row _).2 (.inl rfl))
  · rename_i dropped
    exact .inr (by simpa using dropped)

theorem migrateRow_contentValid (e : Entry) (row : Nat) :
    (e.migrateRow row).contentValid = e.contentValid := by
  unfold migrateRow
  split <;> rfl

end Entry

namespace Layer

variable {l l' l'' : Layer} {id v row : Nat} {f : Entry → Entry}

/-- The data of a logical bank may not be used any more. -/
def dropped (l : Layer) (id : Nat) : Bool := (l.bank? id).any fun entry => !entry.contentValid

/-- A row of a logical bank has moved. -/
def rowListed (l : Layer) (id row : Nat) : Bool :=
  (l.bank? id).any fun entry => entry.migratedRows.contains row

theorem mem_banks_iff (h : l.Sound) {entry : Entry} :
    entry ∈ l.banks.toList ↔ l.bank? entry.id = some entry := by
  simp only [List.mem_iff_getElem?, Array.getElem?_toList, bank?]
  constructor
  · rintro ⟨i, hi⟩
    rwa [h.ids i entry hi]
  · intro hentry
    exact ⟨entry.id, hentry⟩

theorem mem_invalidatedBanks (h : l.Sound) {p : BankPlace} :
    p ∈ l.invalidatedBanks ↔
      l.geometry.holds p = true ∧ l.dropped (l.geometry.bankId p) = true := by
  simp only [invalidatedBanks, List.mem_map, List.mem_filter, mem_banks_iff h, dropped,
    Option.any_eq_true]
  constructor
  · rintro ⟨entry, ⟨hentry, hdropped⟩, rfl⟩
    have hid : entry.id < l.geometry.totalBanks :=
      h.banks_size ▸ (Array.getElem?_eq_some_iff.1 hentry).1
    rw [Geometry.bankId_bankAt]
    exact ⟨Geometry.holds_bankAt hid, entry, hentry, hdropped⟩
  · rintro ⟨hp, entry, hentry, hdropped⟩
    -- The list names the bank by the number in its entry, which is the number it is found under.
    have hid := h.ids _ entry hentry
    refine ⟨entry, ⟨hid ▸ hentry, hdropped⟩, ?_⟩
    rw [hid, l.geometry.bankAt_bankId (Geometry.holds_iff.1 hp).2]

theorem mem_migratedRows (h : l.Sound) {p : BankPlace} :
    (p, row) ∈ l.migratedRows ↔
      l.geometry.holds p = true ∧ l.rowListed (l.geometry.bankId p) row = true := by
  simp only [migratedRows, List.mem_flatMap, List.mem_map, mem_banks_iff h, rowListed,
    Option.any_eq_true, List.contains_iff_mem, Prod.mk.injEq]
  constructor
  · rintro ⟨entry, hentry, r, hrow, rfl, rfl⟩
    have hid : entry.id < l.geometry.totalBanks :=
      h.banks_size ▸ (Array.getElem?_eq_some_iff.1 hentry).1
    rw [Geometry.bankId_bankAt]
    exact ⟨Geometry.holds_bankAt hid, entry, hentry, hrow⟩
  · rintro ⟨hp, entry, hentry, hrow⟩
    have hid := h.ids _ entry hentry
    refine ⟨entry, hid ▸ hentry, row, hrow, ?_, rfl⟩
    rw [hid, l.geometry.bankAt_bankId (Geometry.holds_iff.1 hp).2]

/-! ## Entries of all banks -/

/-- Every bank's entry is carried on. -/
def CarriesEntries (l l' : Layer) : Prop :=
  ∀ id, ∃ f : Entry → Entry, (∀ e : Entry, e.Carries (f e)) ∧ l'.bank? id = (l.bank? id).map f

namespace CarriesEntries

/-- The entries of the banks are the same. -/
theorem of_eq (h : ∀ id, l'.bank? id = l.bank? id) : CarriesEntries l l' :=
  fun id => ⟨fun e => e, .refl, by rw [h id, Option.map_id']⟩

theorem refl (l : Layer) : CarriesEntries l l := of_eq fun _ => rfl

theorem trans (h : CarriesEntries l l') (h' : CarriesEntries l' l'') : CarriesEntries l l'' := by
  intro id
  rcases h id with ⟨f, hf, hl⟩
  rcases h' id with ⟨g, hg, hl'⟩
  exact ⟨g ∘ f, fun e => (hf e).trans (hg (f e)), by rw [hl', hl, Option.map_map]⟩

theorem modifyBank (l : Layer) (i : Nat) (hf : ∀ e : Entry, e.Carries (f e)) :
    CarriesEntries l (l.modifyBank i f) := by
  intro id
  rw [bank?_modifyBank]
  split
  · exact ⟨f, hf, rfl⟩
  · exact refl l id

theorem modifyBanks (l : Layer) (ids : List Nat) (hf : ∀ e : Entry, e.Carries (f e)) :
    CarriesEntries l (l.modifyBanks ids f) := by
  induction ids generalizing l with
  | nil => exact refl l
  | cons i ids ih => exact (modifyBank l i hf).trans (ih (l.modifyBank i f))

theorem bankMoved (l : Layer) (id : Nat) : CarriesEntries l (l.bankMoved id) :=
  modifyBank l id fun _ => .of_dropped rfl

theorem vaultMoved (l : Layer) (v : Nat) : CarriesEntries l (l.vaultMoved v) := by
  have marked : CarriesEntries l (l.modifyVault v (·.markMoved l.epoch)) := of_eq fun _ => rfl
  exact marked.trans (modifyBanks _ _ fun _ => .of_dropped rfl)

theorem rowMoved (l : Layer) (row a b : Nat) : CarriesEntries l (l.rowMoved row a b) :=
  (modifyBank l a (·.carries_migrateRow row)).trans (modifyBank _ b (·.carries_migrateRow row))

theorem dropped (h : CarriesEntries l l') (hid : l.dropped id = true) : l'.dropped id = true := by
  rcases h id with ⟨f, hf, hl⟩
  simp only [Layer.dropped, Option.any_eq_true, Bool.not_eq_true'] at *
  rcases hid with ⟨e, he, hdropped⟩
  exact ⟨f e, by simp [hl, he], (hf e).dropped hdropped⟩

theorem listed (h : CarriesEntries l l') (hrow : l.rowListed id row = true) :
    l'.rowListed id row = true ∨ l'.dropped id = true := by
  rcases h id with ⟨f, hf, hl⟩
  simp only [Layer.dropped, Layer.rowListed, Option.any_eq_true, Bool.not_eq_true',
    List.contains_iff_mem] at *
  rcases hrow with ⟨e, he, hmem⟩
  rcases (hf e).listed row hmem with listed | dropped
  · exact .inl ⟨f e, by simp [hl, he], listed⟩
  · exact .inr ⟨f e, by simp [hl, he], dropped⟩

theorem bankDisabled (h : CarriesEntries l l') (hid : l'.bankDisabled id = true) :
    l.bankDisabled id = true ∨ l'.dropped id = true := by
  rcases h id with ⟨f, hf, hl⟩
  simp only [Layer.dropped, Layer.bankDisabled, Option.any_eq_true, Bool.not_eq_true'] at *
  rcases hid with ⟨e', he', hdisabled⟩
  rw [hl, Option.map_eq_some_iff] at he'
  rcases he' with ⟨e, he, rfl⟩
  rcases (hf e).disabled hdisabled with disabled | dropped
  · exact .inl ⟨e, he, disabled⟩
  · exact .inr ⟨f e, by simp [hl, he], dropped⟩

end CarriesEntries

/-! ## Completeness -/

/-- Whatever differs from the earlier layer is in the journal of the later one. -/
structure Journals (l l' : Layer) : Prop where
  geometry : l'.geometry = l.geometry
  entries : CarriesEntries l l'
  moved : ∀ id row, id < l.geometry.totalBanks →
    l'.mapping.physicalOfRow row id ≠ l.mapping.physicalOfRow row id →
      l'.rowListed id row = true ∨ l'.dropped id = true
  vaultDisabled : ∀ v, l'.vaultDisabled v = true → l.vaultDisabled v = true ∨
    ∀ id, id < l.geometry.totalBanks → l.geometry.vaultOf id = v → l'.dropped id = true

namespace Journals

/-- No bank has moved and no vault has been disabled. -/
theorem of_entries (entries : CarriesEntries l l') (mapping : l'.mapping = l.mapping)
    (vaults : ∀ v, l'.vaultDisabled v = true → l.vaultDisabled v = true) : Journals l l' where
  geometry := congrArg Mapping.geometry mapping
  entries := entries
  moved := fun id row _ hne => absurd (by rw [mapping]) hne
  vaultDisabled := fun v hv => .inl (vaults v hv)

theorem refl (l : Layer) : Journals l l := of_entries (.refl l) rfl fun _ h => h

theorem trans (h : Journals l l') (h' : Journals l' l'') : Journals l l'' where
  geometry := h'.geometry.trans h.geometry
  entries := h.entries.trans h'.entries
  moved := by
    intro id row hid hne
    by_cases first : l'.mapping.physicalOfRow row id = l.mapping.physicalOfRow row id
    · rw [← first] at hne
      exact h'.moved id row (h.geometry ▸ hid) hne
    · rcases h.moved id row hid first with listed | dropped
      · exact h'.entries.listed listed
      · exact .inr (h'.entries.dropped dropped)
  vaultDisabled := by
    intro v hv
    rcases h'.vaultDisabled v hv with disabled | dropped
    · rcases h.vaultDisabled v disabled with disabled | dropped
      · exact .inl disabled
      · exact .inr fun id hid hvid => h'.entries.dropped (dropped id hid hvid)
    · rw [h.geometry] at dropped
      exact .inr dropped

/-- A logical bank that has come out of use is dropped. -/
theorem idDisabled (h : Journals l l') (hid : id < l.geometry.totalBanks)
    (now : l'.idDisabled id = true) (before : l.idDisabled id = false) :
    l'.dropped id = true := by
  simp only [Layer.idDisabled, h.geometry, Bool.or_eq_true, Bool.or_eq_false_iff] at now before
  rcases now with bank | vault
  · rcases h.entries.bankDisabled bank with disabled | dropped
    · simp [disabled] at before
    · exact dropped
  · rcases h.vaultDisabled _ vault with disabled | dropped
    · simp [disabled] at before
    · exact dropped id hid rfl

end Journals

/-! ### Affected banks -/

theorem dropped_modifyBank (h : l.Sound) (hid : id < l.geometry.totalBanks)
    (hf : ∀ e : Entry, (f e).contentValid = false) : (l.modifyBank id f).dropped id = true := by
  rcases h.exists_bank hid with ⟨entry, hentry⟩
  simp [dropped, bank?_modifyBank, hentry, hf]

theorem dropped_modifyBanks {ids : List Nat} (h : l.Sound) (nodup : ids.Nodup) (hmem : id ∈ ids)
    (hid : id < l.geometry.totalBanks) (hf : ∀ e : Entry, (f e).contentValid = false) :
    (l.modifyBanks ids f).dropped id = true := by
  rcases h.exists_bank hid with ⟨entry, hentry⟩
  simp [dropped, bank?_modifyBanks nodup, hmem, hentry, hf]

theorem dropped_vaultMoved (h : l.Sound) (hid : id < l.geometry.totalBanks)
    (hv : l.geometry.vaultOf id = v) : (l.vaultMoved v).dropped id = true :=
  dropped_modifyBanks h.modifyVault (Geometry.bankIdsOf_nodup _ _)
    ((Geometry.mem_bankIdsOf hid).2 hv) hid fun _ => rfl

/-- A row that has moved is listed, unless the bank is dropped. -/
theorem noted_modifyBank (h : l.Sound) (hid : id < l.geometry.totalBanks) :
    (l.modifyBank id (·.migrateRow row)).rowListed id row = true ∨
      (l.modifyBank id (·.migrateRow row)).dropped id = true := by
  rcases h.exists_bank hid with ⟨entry, hentry⟩
  rcases entry.migrateRow_notes row with listed | dropped
  · exact .inl (by simp [rowListed, bank?_modifyBank, hentry, listed])
  · exact .inr (by simp [Layer.dropped, bank?_modifyBank, hentry, dropped])

theorem noted_rowMoved {a b : Nat} (h : l.Sound) (ha : a < l.geometry.totalBanks)
    (hb : b < l.geometry.totalBanks) (hid : id = a ∨ id = b) :
    (l.rowMoved row a b).rowListed id row = true ∨ (l.rowMoved row a b).dropped id = true := by
  have first : (l.modifyBank a (·.migrateRow row)).Sound := h.modifyBank (migrateRow_id · row)
  rcases hid with rfl | rfl
  -- The second bank's entry is written last, and the first one is carried past it.
  · have later : CarriesEntries (l.modifyBank id (·.migrateRow row)) (l.rowMoved row id b) :=
      .modifyBank _ b (·.carries_migrateRow row)
    rcases noted_modifyBank h ha with listed | dropped
    · exact later.listed listed
    · exact .inr (later.dropped dropped)
  · exact noted_modifyBank first hb

theorem vaultDisabled_modifyVault (hf : ∀ e : Entry, (f e).disabled = true → e.disabled = true)
    {w : Nat} (hw : (l.modifyVault v f).vaultDisabled w = true) : l.vaultDisabled w = true := by
  simp only [vaultDisabled, vault?_modifyVault, Option.any_eq_true] at *
  rcases hw with ⟨e, he, hdisabled⟩
  split at he
  · rcases Option.map_eq_some_iff.1 he with ⟨old, hold, rfl⟩
    exact ⟨old, hold, hf old hdisabled⟩
  · exact ⟨e, he, hdisabled⟩

theorem vaultDisabled_vaultMoved {w : Nat} (hw : (l.vaultMoved v).vaultDisabled w = true) :
    l.vaultDisabled w = true := by
  refine vaultDisabled_modifyVault (v := v) (f := (·.markMoved l.epoch)) (fun _ h => h) ?_
  simpa only [vaultMoved, vaultDisabled, vault?, modifyBanks_vaults] using hw

/-! ### Changes -/

theorem RowChange.journals (h : l.Sound) (step : RowChange l l') : Journals l l' := by
  cases step with
  | counts c => exact .of_entries (.of_eq fun _ => rfl) rfl fun _ h => h
  | exchange row x y q x_lt y_lt swap =>
      have hq : q.Inverse l.geometry.totalBanks := (h.mapping.rowPermutation_inverse row).swap? swap
      have mapped : Mapping.Sound { l.mapping with rows := l.mapping.rows.insert row q } :=
        h.mapping.withRow hq
      have sound := h.withMapping mapped rfl
      refine ⟨rfl, .trans (.of_eq fun _ => rfl) (.rowMoved _ _ _ _), ?_, fun _ h => .inl h⟩
      intro id other hid hne
      -- A row that has moved is the one exchanged, of a bank that is on one of the two places.
      have hit : other = row ∧ (l.mapping.physicalOf id = x ∨ l.mapping.physicalOf id = y) := by
        by_cases hrow : other = row
        · refine ⟨hrow, ?_⟩
          by_cases hx : l.mapping.physicalOf id = x
          · exact .inl hx
          · by_cases hy : l.mapping.physicalOf id = y
            · exact .inr hy
            · exact absurd (Mapping.redirect_swapRow swap (.inr ⟨hx, hy⟩)) hne
        · exact absurd (Mapping.redirect_swapRow swap (.inl hrow)) hne
      rcases hit with ⟨rfl, hbank⟩
      apply noted_rowMoved sound (h.mapping.logicalOf_lt x_lt) (h.mapping.logicalOf_lt y_lt)
      rcases hbank with rfl | rfl
      · exact .inl (h.mapping.logicalOf_physicalOf id).symm
      · exact .inr (h.mapping.logicalOf_physicalOf id).symm
  | markMoved id =>
      exact .of_entries (.modifyBank l id fun _ => .of_eq rfl rfl rfl) rfl fun _ h => h
  | dropIdentities =>
      refine ⟨rfl, .of_eq fun _ => rfl, fun id row _ hne => ?_, fun _ h => .inl h⟩
      exact absurd (h.mapping.redirect_dropIdentities row (l.mapping.physicalOf id)) hne

theorem journals_disableVault (h : l.Sound) (v_lt : v < l.geometry.vaults)
    (on : l.vaultDisabled v = false) (c : RelocationCounts) :
    Journals l
      (((l.modifyVault v (·.disable false)).modifyBanks (l.geometry.bankIdsOf v)
        Entry.invalidate).withCounts c) := by
  have disabled : (l.modifyVault v (·.disable false)).Sound := h.modifyVault
  have entries : CarriesEntries l
      ((l.modifyVault v (·.disable false)).modifyBanks (l.geometry.bankIdsOf v)
        Entry.invalidate) :=
    .trans (.of_eq fun _ => rfl) (.modifyBanks _ _ fun _ => .of_dropped rfl)
  refine ⟨?_, entries.trans (.of_eq fun _ => rfl), ?_, ?_⟩
  · exact (Change.disableVault v v_lt on c).frame.geometry
  · intro id row _ hne
    simp [withCounts, modifyVault] at hne
  · intro w hw
    by_cases hvw : v = w
    · subst hvw
      right
      intro id hid hv
      exact dropped_modifyBanks disabled (Geometry.bankIdsOf_nodup _ _)
        ((Geometry.mem_bankIdsOf hid).2 hv) hid fun _ => rfl
    · left
      have same : (l.modifyVault v (·.disable false)).vault? w = l.vault? w := by
        rw [vault?_modifyVault, if_neg hvw]
      have disabled : (l.modifyVault v (·.disable false)).vaultDisabled w = true := by
        simpa only [withCounts, vaultDisabled, vault?, modifyBanks_vaults] using hw
      simpa only [vaultDisabled, same] using disabled

section Exchange

variable {a b w : Nat} {q : Permutation}

/-- Only the two banks that exchange their slots move, and both are dropped. -/
theorem journals_exchangeBanks (h : l.Sound) (a_lt : a < l.geometry.totalBanks)
    (b_lt : b < l.geometry.totalBanks)
    (swap : l.mapping.banks.swap? (l.mapping.slotOf a) (l.mapping.slotOf b) = some q)
    (c : RelocationCounts) :
    Journals l
      ((((l.withMapping { l.mapping with banks := q }).bankMoved a).bankMoved b).withCounts c) := by
  have hq : q.Inverse l.geometry.totalBanks := h.mapping.banks.swap? swap
  have sound := h.withMapping (h.mapping.withBanks hq) rfl
  have entries : CarriesEntries l
      (((l.withMapping { l.mapping with banks := q }).bankMoved a).bankMoved b) :=
    .trans (.of_eq fun _ => rfl) ((CarriesEntries.bankMoved _ a).trans (.bankMoved _ b))
  refine ⟨rfl, entries.trans (.of_eq fun _ => rfl), ?_, fun _ h => .inl h⟩
  intro id row hid hne
  right
  -- Rows are redirected as before, so the physical bank itself must differ.
  have physical : ({ l.mapping with banks := q } : Mapping).physicalOf id ≠
      l.mapping.physicalOf id := fun heq => hne (congrArg (l.mapping.redirect row) heq)
  rw [h.mapping.physicalOf_swapBanks a_lt b_lt swap] at physical
  by_cases hb : id = b
  · subst hb
    exact dropped_modifyBank sound.bankMoved b_lt fun _ => rfl
  · by_cases ha : id = a
    · subst ha
      -- The bank dropped first is not taken back when the other one is dropped.
      exact (CarriesEntries.bankMoved _ b).dropped (dropped_modifyBank sound a_lt fun _ => rfl)
    · simp [ha, hb] at physical

/-- Only banks of the two vaults that change place move, and all of them are dropped. -/
theorem journals_exchangeVaults (h : l.Sound) (v_lt : v < l.geometry.vaults)
    (w_lt : w < l.geometry.vaults) (ne : v ≠ w) (swap : l.mapping.vaults.swap? v w = some q)
    (c : RelocationCounts) :
    Journals l
      ((((l.withMapping { l.mapping with vaults := q }).vaultMoved v).vaultMoved w).withCounts
        c) := by
  have hq : q.Inverse l.geometry.vaults := h.mapping.vaults.swap? swap
  have sound := h.withMapping (h.mapping.withVaults hq) rfl
  have mapped : CarriesEntries l (l.withMapping { l.mapping with vaults := q }) :=
    .of_eq fun _ => rfl
  have entries := (mapped.trans (.vaultMoved _ v)).trans (.vaultMoved _ w)
  have frame := (Change.exchangeVaults v w q v_lt w_lt ne swap c).frame
  refine ⟨frame.geometry, entries.trans (.of_eq fun _ => rfl), ?_, ?_⟩
  · intro id row hid hne
    right
    simp only [withCounts, vaultMoved_mapping] at hne
    have physical : ({ l.mapping with vaults := q } : Mapping).physicalOf id ≠
        l.mapping.physicalOf id := fun heq => hne (congrArg (l.mapping.redirect row) heq)
    by_cases hw : l.geometry.vaultOf id = w
    · have geometry := (vaultMoved_frame (l.withMapping { l.mapping with vaults := q }) v).geometry
      exact dropped_vaultMoved sound.vaultMoved (geometry ▸ hid) (by rw [geometry]; exact hw)
    · by_cases hv : l.geometry.vaultOf id = v
      · exact (CarriesEntries.vaultMoved _ w).dropped (dropped_vaultMoved sound hid hv)
      · exact absurd (Mapping.physicalOf_swapVaults swap hv hw) physical
  · intro u hu
    -- Marking a vault as moved switches no vault off.
    have second : ((l.withMapping { l.mapping with vaults := q }).vaultMoved v).vaultDisabled
        u = true := vaultDisabled_vaultMoved (v := w) hu
    have first : (l.withMapping { l.mapping with vaults := q }).vaultDisabled u = true :=
      vaultDisabled_vaultMoved second
    exact .inl first

end Exchange

/-- Whatever a change moves or disables is in the journal. -/
theorem Change.journals (h : l.Sound) (change : Change l l') : Journals l l' := by
  cases change with
  | rows steps =>
      -- Soundness goes along, since the journal of each step is about a sound layer.
      have chain : Journals l l' ∧ l'.Sound := by
        induction steps with
        | refl => exact ⟨.refl l, h⟩
        | tail _ step ih => exact ⟨ih.1.trans (step.journals ih.2), step.sound ih.2⟩
      exact chain.1
  | enableBank id off c =>
      have enabled : CarriesEntries l (l.modifyBank id Entry.enable) :=
        .modifyBank l id Entry.carries_enable
      exact .of_entries (enabled.trans (.of_eq fun _ => rfl)) rfl fun _ h => h
  | disableBank id double id_lt on c =>
      have disabled : CarriesEntries l (l.modifyBank id (·.disable double)) :=
        .modifyBank l id fun _ => .of_dropped rfl
      exact .of_entries (disabled.trans (.of_eq fun _ => rfl)) rfl fun _ h => h
  | enableVault v off c =>
      refine .of_entries (.of_eq fun _ => rfl) rfl ?_
      intro w hw
      exact vaultDisabled_modifyVault (v := v) (f := Entry.enable) (fun _ h => by cases h) hw
  | disableVault v v_lt on c => exact journals_disableVault h v_lt on c
  | exchangeBanks a b q a_lt b_lt ne swap c => exact journals_exchangeBanks h a_lt b_lt swap c
  | exchangeVaults v w q v_lt w_lt ne swap c => exact journals_exchangeVaults h v_lt w_lt ne swap c

/-! ## Exactness -/

/-- A bank has moved, or it or its vault has come out of use. -/
def Struck (l l' : Layer) (id : Nat) : Prop :=
  l'.mapping.physicalOf id ≠ l.mapping.physicalOf id ∨
    l.bankDisabled id = false ∧ l'.bankDisabled id = true ∨
      l.vaultDisabled (l.geometry.vaultOf id) = false ∧
        l'.vaultDisabled (l.geometry.vaultOf id) = true

theorem lt_of_dropped (h : l.Sound) (hid : l.dropped id = true) :
    id < l.geometry.totalBanks := by
  rcases (Option.any_eq_true _ _).1 hid with ⟨entry, hentry, _⟩
  exact h.banks_size ▸ (Array.getElem?_eq_some_iff.1 hentry).1

theorem dropped_modifyBank_of_eq (l : Layer) (i id : Nat)
    (hf : ∀ e : Entry, (f e).contentValid = e.contentValid) :
    (l.modifyBank i f).dropped id = l.dropped id := by
  unfold dropped
  rw [bank?_modifyBank]
  split
  · cases l.bank? id <;> simp [hf]
  · rfl

theorem dropped_modifyBank_ne {i : Nat} (hne : i ≠ id) :
    (l.modifyBank i f).dropped id = l.dropped id := by
  unfold dropped
  rw [bank?_modifyBank, if_neg hne]

theorem dropped_modifyBanks_ne (hid : id < l.geometry.totalBanks)
    (hne : l.geometry.vaultOf id ≠ v) :
    (l.modifyBanks (l.geometry.bankIdsOf v) f).dropped id = l.dropped id := by
  have outside : id ∉ l.geometry.bankIdsOf v := fun hmem =>
    hne ((Geometry.mem_bankIdsOf hid).1 hmem)
  unfold dropped
  rw [bank?_modifyBanks (Geometry.bankIdsOf_nodup _ _), if_neg outside]

theorem dropped_vaultMoved_ne (hid : id < l.geometry.totalBanks) (hne : l.geometry.vaultOf id ≠ v) :
    (l.vaultMoved v).dropped id = l.dropped id :=
  dropped_modifyBanks_ne (l := l.modifyVault v (·.markMoved l.epoch)) hid hne

/-- A change of rows drops no bank. -/
theorem RowChange.dropped (step : RowChange l l') (id : Nat) : l'.dropped id = l.dropped id := by
  cases step with
  | counts c => rfl
  | exchange row x y q x_lt y_lt swap =>
      have content := fun e : Entry => e.migrateRow_contentValid row
      exact (dropped_modifyBank_of_eq _ _ id content).trans (dropped_modifyBank_of_eq _ _ id content)
  | markMoved i => exact dropped_modifyBank_of_eq l i id fun _ => rfl
  | dropIdentities => rfl

theorem struck_disableVault (h : l.Sound) (hid : id < l.geometry.totalBanks)
    (v_lt : v < l.geometry.vaults) (on : l.vaultDisabled v = false) (c : RelocationCounts) :
    let l' := ((l.modifyVault v (·.disable false)).modifyBanks (l.geometry.bankIdsOf v)
      Entry.invalidate).withCounts c
    l'.dropped id = l.dropped id ∨ Struck l l' id := by
  intro l'
  by_cases hv : l.geometry.vaultOf id = v
  · subst hv
    rcases h.exists_vault v_lt with ⟨entry, hentry⟩
    have disabled : (l.modifyVault (l.geometry.vaultOf id) (·.disable false)).vaultDisabled
        (l.geometry.vaultOf id) = true := by
      simp [vaultDisabled, vault?_modifyVault, hentry, Entry.disable, Entry.invalidate]
    refine .inr (.inr (.inr ⟨on, ?_⟩))
    simpa only [l', withCounts, vaultDisabled, vault?, modifyBanks_vaults] using disabled
  · exact .inl (dropped_modifyBanks_ne (l := l.modifyVault v (·.disable false)) hid hv)

section Exchange

variable {a b w : Nat} {q : Permutation}

theorem struck_exchangeBanks (h : l.Sound) (a_lt : a < l.geometry.totalBanks)
    (b_lt : b < l.geometry.totalBanks) (ne : a ≠ b)
    (swap : l.mapping.banks.swap? (l.mapping.slotOf a) (l.mapping.slotOf b) = some q)
    (c : RelocationCounts) :
    let l' := (((l.withMapping { l.mapping with banks := q }).bankMoved a).bankMoved b).withCounts c
    l'.dropped id = l.dropped id ∨ Struck l l' id := by
  intro l'
  have physical := h.mapping.physicalOf_swapBanks a_lt b_lt swap id
  -- Different banks have different places, so an exchange really moves both.
  by_cases hb : id = b
  · subst hb
    rw [if_pos rfl] at physical
    exact .inr (.inl fun heq => ne (h.mapping.physicalOf_injective (physical.symm.trans heq)))
  · by_cases ha : id = a
    · subst ha
      rw [if_neg ne, if_pos rfl] at physical
      exact .inr (.inl fun heq =>
        ne (h.mapping.physicalOf_injective (physical.symm.trans heq)).symm)
    · left
      exact (dropped_modifyBank_ne fun heq => hb heq.symm).trans
        (dropped_modifyBank_ne fun heq => ha heq.symm)

theorem struck_exchangeVaults (h : l.Sound) (hid : id < l.geometry.totalBanks) (ne : v ≠ w)
    (swap : l.mapping.vaults.swap? v w = some q) (c : RelocationCounts) :
    let l' :=
      (((l.withMapping { l.mapping with vaults := q }).vaultMoved v).vaultMoved w).withCounts c
    l'.dropped id = l.dropped id ∨ Struck l l' id := by
  intro l'
  by_cases hit : l.geometry.vaultOf id = v ∨ l.geometry.vaultOf id = w
  · refine .inr (.inl ?_)
    have physical := h.mapping.physicalOf_swapVaults_ne hid swap ne hit
    simp only [l', withCounts, vaultMoved_mapping]
    exact physical
  · left
    rcases not_or.1 hit with ⟨hv, hw⟩
    have geometry := (vaultMoved_frame (l.withMapping { l.mapping with vaults := q }) v).geometry
    have first := dropped_vaultMoved_ne (l := l.withMapping { l.mapping with vaults := q }) hid hv
    have second := dropped_vaultMoved_ne
      (l := (l.withMapping { l.mapping with vaults := q }).vaultMoved v) (v := w) (geometry ▸ hid)
      (by rw [geometry]; exact hw)
    exact second.trans first

end Exchange

/-- A change drops no bank but those it moves or takes out of use. -/
theorem Change.dropped_or_struck (h : l.Sound) (change : Change l l')
    (hid : id < l.geometry.totalBanks) : l'.dropped id = l.dropped id ∨ Struck l l' id := by
  cases change with
  | rows steps =>
      left
      induction steps with
      | refl => rfl
      | tail _ step ih => exact (step.dropped id).trans ih
  | enableBank i off c => exact .inl (dropped_modifyBank_of_eq l i id fun _ => rfl)
  | disableBank i double i_lt on c =>
      by_cases hi : i = id
      · subst hi
        rcases h.exists_bank hid with ⟨entry, hentry⟩
        have disabled : (l.modifyBank i (·.disable double)).bankDisabled i = true := by
          simp [bankDisabled, bank?_modifyBank, hentry, Entry.disable, Entry.invalidate]
        exact .inr (.inr (.inl ⟨on, disabled⟩))
      · exact .inl (dropped_modifyBank_ne hi)
  | enableVault v off c => exact .inl rfl
  | disableVault v v_lt on c => exact struck_disableVault h hid v_lt on c
  | exchangeBanks a b q a_lt b_lt ne swap c => exact struck_exchangeBanks h a_lt b_lt ne swap c
  | exchangeVaults v w q v_lt w_lt ne swap c => exact struck_exchangeVaults h hid ne swap c

theorem Change.struck (h : l.Sound) (change : Change l l') (now : l'.dropped id = true)
    (before : l.dropped id = false) : Struck l l' id := by
  have hid : id < l.geometry.totalBanks := by
    have lt := lt_of_dropped (change.sound h) now
    rwa [change.frame.geometry] at lt
  rcases change.dropped_or_struck h hid with same | struck
  · rw [now, before] at same
    cases same
  · exact struck

/-! ## Runs -/

theorem Journals.changes (h : l.Sound) (changes : ReflTransGen Change l l') : Journals l l' := by
  induction changes with
  | refl => exact .refl l
  | tail earlier change ih => exact ih.trans (change.journals (h.changes earlier))

/-- Every operation but a settlement keeps the journal. -/
theorem perform_journals (h : l.Sound) {op : Operation} (kept : op ≠ .settle) :
    Journals l (l.perform op) := by
  cases op with
  | setTemperature p t =>
      rcases perform_setTemperature l p t with ⟨ledger, stored⟩
      rw [stored]
      exact .of_entries (.of_eq fun _ => rfl) rfl fun _ h => h
  | recordAccess place requests =>
      rcases perform_recordAccess l place requests with refused | ⟨ledger, recorded⟩
      · rw [refused]
        exact .refl l
      · have noted : CarriesEntries l { l with ledger := ledger } := .of_eq fun _ => rfl
        have entries := noted.trans (.modifyBank _ (l.geometry.bankId place.place)
          (f := (·.recordAccess place.row requests)) fun _ => .of_eq rfl rfl rfl)
        rw [recorded]
        -- The vault's entry has counted the requests, and is as disabled as before.
        refine .of_entries (entries.trans (.of_eq fun _ => rfl)) rfl ?_
        intro v hv
        exact vaultDisabled_modifyVault (f := (·.recordAccess place.bank requests))
          (v := place.vault) (fun _ h => h) hv
  | runEpoch =>
      have next : Journals l l.nextEpoch.layer :=
        .of_entries (.of_eq fun _ => rfl) rfl fun _ h => h
      exact next.trans (.changes (nextEpoch_sound h) (runEpoch_changes h))
  | settle => exact absurd rfl kept
  | resetCounts =>
      have entries : CarriesEntries l l.resetCounts := fun id =>
        ⟨Entry.resetCounts, fun _ => .of_eq rfl rfl rfl, bank?_resetCounts l id⟩
      refine .of_entries entries rfl ?_
      intro v hv
      simp only [perform, vaultDisabled, vault?_resetCounts, Option.any_map] at hv
      exact hv

theorem run_journals (h : l.Sound) {ops : List Operation} (kept : .settle ∉ ops) :
    Journals l (l.run ops) := by
  induction ops generalizing l with
  | nil => exact .refl l
  | cons op ops ih =>
      rw [List.mem_cons, not_or] at kept
      have first := perform_journals h fun heq => kept.1 heq.symm
      exact first.trans (ih (perform_sound h op) kept.2)

/-- Of all operations only an epoch drops banks. -/
theorem perform_dropped {op : Operation} (epoch : op ≠ .runEpoch)
    (now : (l.perform op).dropped id = true) : l.dropped id = true := by
  cases op with
  | setTemperature p t =>
      rcases perform_setTemperature l p t with ⟨ledger, stored⟩
      rw [stored] at now
      exact now
  | recordAccess place requests =>
      rcases perform_recordAccess l place requests with refused | ⟨ledger, recorded⟩
      · rwa [refused] at now
      · have same := dropped_modifyBank_of_eq { l with ledger := ledger }
          (l.geometry.bankId place.place) id (f := (·.recordAccess place.row requests)) fun _ => rfl
        rw [recorded] at now
        exact same.symm.trans now
  | runEpoch => exact absurd rfl epoch
  | settle =>
      simp only [perform, dropped, bank?_settle, Option.any_map] at now
      simp [Entry.settle] at now
  | resetCounts =>
      simp only [perform, dropped, bank?_resetCounts, Option.any_map] at now
      exact now

/-- A bank that an epoch drops is struck by one of its turns. -/
theorem runEpoch_struck (h : l.Sound) (now : l.runEpoch.2.dropped id = true)
    (before : l.dropped id = false) : ∃ n, Struck (l.stage n) (l.stage (n + 1)) id := by
  rcases runEpoch_layer h with ⟨c, hc⟩
  have last : (l.stage l.turns.length).dropped id = true := by
    rw [hc] at now
    exact now
  -- The turn that struck the bank is the first after which it is dropped.
  have search : ∀ n, (l.stage n).dropped id = true →
      ∃ n, Struck (l.stage n) (l.stage (n + 1)) id := by
    intro n
    induction n with
    | zero =>
        intro hn
        exact absurd (before.symm.trans hn) (by decide)
    | succ n ih =>
        intro hn
        cases earlier : (l.stage n).dropped id with
        | true => exact ih earlier
        | false => exact ⟨n, (stage_change h n).struck (stage_sound h n) hn earlier⟩
  exact search _ last

/-- A dropped bank was struck by a turn of an epoch of the run. -/
theorem run_struck (h : l.Sound) (start : l.dropped id = false) {ops : List Operation}
    (now : (l.run ops).dropped id = true) :
    ∃ done rest n, ops = done ++ .runEpoch :: rest ∧
      Struck ((l.run done).stage n) ((l.run done).stage (n + 1)) id := by
  -- From the end, so that the state before the last operation is one of a shorter run.
  induction ops using List.reverseRecOn with
  | nil => exact absurd (start.symm.trans now) (by decide)
  | append_singleton ops op ih =>
      cases earlier : (l.run ops).dropped id with
      | true =>
          rcases ih earlier with ⟨done, rest, n, heq, hstruck⟩
          exact ⟨done, rest ++ [op], n, by simp [heq], hstruck⟩
      | false =>
          rw [run_append] at now
          by_cases epoch : op = .runEpoch
          · subst epoch
            rcases runEpoch_struck (run_sound h ops) now earlier with ⟨n, hstruck⟩
            exact ⟨ops, [], n, rfl, hstruck⟩
          -- No other operation can have dropped the bank, so it was dropped before.
          · have before := perform_dropped (l := l.run ops) epoch now
            exact absurd (earlier.symm.trans before) (by decide)

theorem dropped_settle (l : Layer) (id : Nat) : l.settle.dropped id = false := by
  simp only [dropped, bank?_settle, Option.any_map]
  simp [Entry.settle]

theorem dropped_ofSettings (s : RelocationSettings) (g : Geometry) (id : Nat) :
    (ofSettings s g).dropped id = false := by
  simp only [dropped, bank?, ofSettings, Array.getElem?_map, Option.any_map]
  simp [Entry.fresh]

/-- Since the last settlement, each row that has moved is listed or its bank is dropped, each bank
that has come out of use is dropped, and each dropped bank was struck by a turn of an epoch. -/
theorem run_journal_complete (s : RelocationSettings) (g : Geometry) (before since : List Operation)
    (settled : before = [] ∨ before.getLast? = some .settle) (kept : .settle ∉ since) :
    let start := (ofSettings s g).run before
    let now := start.run since
    (∀ row : Location, now.physicalLocation row ≠ start.physicalLocation row →
      row.place ∈ now.invalidatedBanks ∨ (row.place, row.row) ∈ now.migratedRows) ∧
    (∀ p, now.disabled p = true → start.disabled p = false → p ∈ now.invalidatedBanks) ∧
    (∀ p ∈ now.invalidatedBanks, ∃ done rest n, since = done ++ .runEpoch :: rest ∧
      Struck ((start.run done).stage n) ((start.run done).stage (n + 1)) (g.bankId p)) := by
  intro start now
  have sound : start.Sound := run_sound (ofSettings_sound s g) before
  have nowSound : now.Sound := run_sound sound since
  have geometry : start.geometry = g := run_geometry (ofSettings_sound s g) before
  have journals : Journals start now := run_journals sound kept
  -- The converse needs a start at which nothing is dropped, and a settlement is one.
  have clean : ∀ id, start.dropped id = false := by
    intro id
    rcases settled with rfl | last
    · exact dropped_ofSettings s g id
    · rcases List.getLast?_eq_some_iff.1 last with ⟨earlier, rfl⟩
      have split : start = ((ofSettings s g).run earlier).settle := run_append _ earlier [.settle]
      rw [split]
      exact dropped_settle _ id
  refine ⟨?_, ?_, ?_⟩
  · intro row hne
    rw [mem_invalidatedBanks nowSound, mem_migratedRows nowSound, journals.geometry]
    cases held : start.geometry.holds row.place with
    | false =>
        -- Rows outside the stack are refused in both states, so they do not count as moved.
        refine absurd ?_ hne
        rw [physicalLocation_of_not_holds held,
          physicalLocation_of_not_holds (journals.geometry ▸ held)]
    | true =>
        have lt := bankId_lt held
        have moved : now.mapping.physicalOfRow row.row (start.geometry.bankId row.place) ≠
            start.mapping.physicalOfRow row.row (start.geometry.bankId row.place) := by
          intro heq
          apply hne
          rw [physicalLocation_of_holds held, physicalLocation_of_holds (journals.geometry ▸ held),
            journals.geometry, heq]
        rcases journals.moved _ _ lt moved with listed | dropped
        · exact .inr ⟨rfl, listed⟩
        · exact .inl ⟨rfl, dropped⟩
  · intro p hnow hstart
    simp only [disabled, journals.geometry, Bool.and_eq_true] at hnow
    simp only [disabled, hnow.1, Bool.true_and] at hstart
    rw [mem_invalidatedBanks nowSound, journals.geometry]
    exact ⟨hnow.1, journals.idDisabled (bankId_lt hnow.1) hnow.2 hstart⟩
  · intro p hp
    rcases (mem_invalidatedBanks nowSound).1 hp with ⟨_, dropped⟩
    rw [journals.geometry, geometry] at dropped
    exact run_struck sound (clean _) dropped

/-- A hot bank changes place with its neighbour, and both are dropped. -/
theorem run_journal_complete_swap :
    let since : List Operation := [.setTemperature ⟨0, 0⟩ ⟨90.0⟩, .runEpoch]
    let start := (ofSettings {} ⟨1, 2, 4⟩).run []
    .settle ∉ since ∧ (start.run since).invalidatedBanks = [⟨0, 0⟩, ⟨0, 1⟩] ∧
      ∃ done rest n, since = done ++ .runEpoch :: rest ∧
        Struck ((start.run done).stage n) ((start.run done).stage (n + 1)) 0 := by
  intro since start
  have kept : Operation.settle ∉ since := by simp [since]
  have banks : (start.run since).invalidatedBanks = [⟨0, 0⟩, ⟨0, 1⟩] := by decide +kernel
  have complete := run_journal_complete {} ⟨1, 2, 4⟩ [] since (.inl rfl) kept
  exact ⟨kept, banks, complete.2.2 ⟨0, 0⟩ (banks ▸ List.mem_cons_self)⟩

end Layer

end StackedCache
