import StackedCache.Proofs.Relocation.Aging
import StackedCache.Proofs.Residency.Coherent

/-!
# Accesses counted by the relocation layer

The ledger counts requests by physical bank, as served while hot or while cool, and again if the
logical bank is at home elsewhere; the entries count them by logical bank and vault.  A record adds
the same number everywhere.  Decisions move banks, rows and vaults under these counts without
touching them.
-/

namespace StackedCache

open Relation (ReflTransGen)

/-! ## The ledger -/

namespace Ledger

variable {l : Ledger} {id n size : Nat}

/-- Requests a physical bank has served. -/
def served (l : Ledger) (id : Nat) : Nat := (l.hot[id]?).getD 0 + (l.cool[id]?).getD 0

/-- Those for logical banks that are at home elsewhere. -/
def foreign (l : Ledger) (id : Nat) : Nat := (l.relocated[id]?).getD 0

/-- The ledger has counters for as many banks. -/
structure Sized (l : Ledger) (size : Nat) : Prop where
  hot : l.hot.size = size
  cool : l.cool.size = size
  relocated : l.relocated.size = size

/-- No bank has served more requests for other banks than requests. -/
def Bounded (l : Ledger) : Prop := ∀ id, l.foreign id ≤ l.served id

theorem ofSize_sized (vaults banksPerVault : Nat) (initial : Celsius) :
    (ofSize vaults banksPerVault initial).Sized (vaults * banksPerVault) :=
  ⟨Array.size_replicate, Array.size_replicate, Array.size_replicate⟩

theorem getD_addTo (counts : Array Nat) (id n other : Nat) (inside : id < counts.size) :
    ((addTo counts id n)[other]?).getD 0 =
      (counts[other]?).getD 0 + if other = id then n else 0 := by
  rw [addTo, Array.getElem?_modify]
  by_cases same : id = other
  · subst same
    simp [inside]
  · simp [same, Ne.symm same]

/-- A record adds to one bank. -/
theorem served_recordAccess (sized : l.Sized size) (inside : id < size) (n : Nat)
    (hot relocated : Bool) (other : Nat) :
    (l.recordAccess id n hot relocated).served other =
      l.served other + if other = id then n else 0 := by
  have hots := getD_addTo l.hot id n other (sized.hot ▸ inside)
  have cools := getD_addTo l.cool id n other (sized.cool ▸ inside)
  cases hot <;> cases relocated <;>
    simp only [recordAccess, served, Bool.false_eq_true, if_true, if_false, hots, cools] <;> omega

theorem foreign_recordAccess_le (sized : l.Sized size) (inside : id < size) (n : Nat)
    (hot relocated : Bool) (other : Nat) :
    (l.recordAccess id n hot relocated).foreign other ≤
      l.foreign other + if other = id then n else 0 := by
  have added := getD_addTo l.relocated id n other (sized.relocated ▸ inside)
  cases hot <;> cases relocated <;>
    simp only [recordAccess, foreign, Bool.false_eq_true, if_true, if_false, added] <;> omega

theorem Sized.recordAccess (h : l.Sized size) (id n : Nat) (hot relocated : Bool) :
    (l.recordAccess id n hot relocated).Sized size := by
  cases hot <;> cases relocated <;>
    exact ⟨by simp [Ledger.recordAccess, addTo, h.hot],
      by simp [Ledger.recordAccess, addTo, h.cool],
      by simp [Ledger.recordAccess, addTo, h.relocated]⟩

theorem Bounded.recordAccess (h : l.Bounded) (sized : l.Sized size) (inside : id < size) (n : Nat)
    (hot relocated : Bool) : (l.recordAccess id n hot relocated).Bounded := by
  intro other
  have bound := h other
  have foreign := foreign_recordAccess_le sized inside n hot relocated other
  have served := served_recordAccess sized inside n hot relocated other
  omega

theorem Sized.resetCounts (h : l.Sized size) : l.resetCounts.Sized size :=
  ⟨Array.size_map.trans h.hot, Array.size_map.trans h.cool, Array.size_map.trans h.relocated⟩

theorem getD_cleared (counts : Array Nat) (id : Nat) :
    ((counts.map fun _ => 0)[id]?).getD 0 = 0 := by
  rw [Array.getElem?_map]
  cases counts[id]? <;> rfl

@[simp] theorem served_resetCounts (l : Ledger) (id : Nat) : l.resetCounts.served id = 0 := by
  simp only [served, resetCounts, getD_cleared]

@[simp] theorem foreign_resetCounts (l : Ledger) (id : Nat) : l.resetCounts.foreign id = 0 :=
  getD_cleared l.relocated id

end Ledger

/-! ## Entries -/

/-- Accesses of several entries together. -/
def Entry.total (entries : Array Entry) : Nat := (entries.toList.map Entry.accesses).sum

namespace Entry

/-- Entries of which none has more or fewer accesses than before. -/
theorem total_congr {entries entries' : Array Entry}
    (same : ∀ i : Nat, entries'[i]?.map Entry.accesses = entries[i]?.map Entry.accesses) :
    total entries' = total entries := by
  have lists : entries'.toList.map Entry.accesses = entries.toList.map Entry.accesses := by
    refine List.ext_getElem? fun i => ?_
    simpa only [List.getElem?_map, Array.getElem?_toList] using same i
  rw [total, lists, total]

theorem total_modify {entries : Array Entry} {i n : Nat} {f : Entry → Entry}
    (inside : i < entries.size) (added : ∀ e, (f e).accesses = e.accesses + n) :
    total (entries.modify i f) = total entries + n := by
  have found : entries.toList[i]? = some entries[i] := by
    rw [Array.getElem?_toList, Array.getElem?_eq_getElem inside]
  have modified := sum_map_modify Entry.accesses f found
  have grown := added entries[i]
  rw [total, Array.toList_modify, total]
  omega

theorem total_map {entries : Array Entry} {f : Entry → Entry}
    (same : ∀ e, (f e).accesses = e.accesses) : total (entries.map f) = total entries := by
  refine total_congr fun i => ?_
  rw [Array.getElem?_map, Option.map_map]
  congr 1
  exact funext same

theorem total_eq_zero {entries : Array Entry} (h : ∀ e ∈ entries, e.accesses = 0) :
    total entries = 0 :=
  sum_map_eq_zero fun e he => h e (Array.mem_toList_iff.1 he)

/-- Entries that have aged have counted nothing. -/
theorem total_of_ages {entries entries' : Array Entry} {now : Nat}
    (aged : ∀ i : Nat, Option.Rel (Ages now) entries[i]? entries'[i]?) :
    total entries' = total entries := by
  refine total_congr fun i => ?_
  have rel := aged i
  generalize entries[i]? = before, entries'[i]? = after at rel ⊢
  cases rel with
  | none => rfl
  | some entry => exact congrArg some entry.accesses

end Entry

/-! ## The layer -/

namespace Layer

variable {l l' : Layer} {n : Nat} {row : Location}

/-- The layer counts as many requests by bank as by logical bank and by vault, `total` of them, and
has a counter for every bank. -/
structure Counted (l : Layer) (total : Nat) : Prop where
  sound : l.Sound
  sized : l.ledger.Sized l.geometry.totalBanks
  bounded : l.ledger.Bounded
  banks : Entry.total l.banks = total
  vaults : Entry.total l.vaults = total

theorem ofSettings_counted (s : RelocationSettings) (g : Geometry) :
    (ofSettings s g).Counted 0 where
  sound := ofSettings_sound s g
  sized := Ledger.ofSize_sized g.vaults g.banks s.initial
  bounded := by
    intro id
    simp only [ofSettings, Ledger.ofSize, Ledger.foreign, Array.getElem?_replicate]
    split <;> exact Nat.zero_le _
  banks := by
    refine Entry.total_eq_zero fun e he => ?_
    rcases Array.mem_map.1 he with ⟨id, _, rfl⟩
    rfl
  vaults := by
    refine Entry.total_eq_zero fun e he => ?_
    rcases Array.mem_map.1 he with ⟨id, _, rfl⟩
    rfl

/-- A layer that differs in what it decides, but not in what it has counted. -/
theorem Counted.congr (h : l.Counted n) (sound : l'.Sound) (geometry : l'.geometry = l.geometry)
    (hot : l'.ledger.hot = l.ledger.hot) (cool : l'.ledger.cool = l.ledger.cool)
    (relocated : l'.ledger.relocated = l.ledger.relocated)
    (banks : Entry.total l'.banks = Entry.total l.banks)
    (vaults : Entry.total l'.vaults = Entry.total l.vaults) : l'.Counted n where
  sound := sound
  sized := by
    rw [geometry]
    exact ⟨hot ▸ h.sized.hot, cool ▸ h.sized.cool, relocated ▸ h.sized.relocated⟩
  bounded := by
    intro id
    have bound := h.bounded id
    simpa only [Ledger.foreign, Ledger.served, hot, cool, relocated] using bound
  banks := banks.trans h.banks
  vaults := vaults.trans h.vaults

/-- Recorded requests are counted once in each place. -/
theorem Counted.recordAccess {total : Nat} (h : l.Counted total)
    (held : l.geometry.holds row.place = true) (n : Nat) :
    (l.perform (.recordAccess row n)).Counted (total + n) ∧
      ∀ id, (l.perform (.recordAccess row n)).ledger.served id =
        l.ledger.served id +
          if id = l.mapping.physicalOfRow row.row (l.geometry.bankId row.place) then n else 0 := by
  have sound := perform_sound h.sound (.recordAccess row n)
  rcases Geometry.holds_iff.1 held with ⟨vault_lt, bank_lt⟩
  have logical : l.geometry.bankId row.place < l.geometry.totalBanks := bankId_lt held
  have physical : l.mapping.physicalOfRow row.row (l.geometry.bankId row.place) <
      l.geometry.totalBanks := h.sound.mapping.physicalOfRow_lt logical
  simp only [perform, Layer.recordAccess, bankId?_of_holds held] at sound ⊢
  have bounded := h.bounded.recordAccess h.sized physical n
  refine ⟨⟨sound, h.sized.recordAccess .., bounded _ _, ?_, ?_⟩, ?_⟩
  · have inside : l.geometry.bankId row.place < l.banks.size := h.sound.banks_size ▸ logical
    exact (Entry.total_modify inside fun _ => rfl).trans (congrArg (· + n) h.banks)
  · have inside : row.vault < l.vaults.size := h.sound.vaults_size ▸ vault_lt
    exact (Entry.total_modify inside fun _ => rfl).trans (congrArg (· + n) h.vaults)
  · exact Ledger.served_recordAccess h.sized physical n _ _

/-- Readings, epochs and drawn consequences leave all counts of requests alone. -/
theorem Counted.perform (h : l.Counted n) {op : Operation}
    (quiet : (∃ p t, op = .setTemperature p t) ∨ op = .runEpoch ∨ op = .settle) :
    (l.perform op).Counted n ∧
      ∀ id, (l.perform op).ledger.served id = l.ledger.served id := by
  have sound := perform_sound h.sound op
  have geometry := perform_geometry h.sound op
  rcases quiet with ⟨p, t, rfl⟩ | rfl | rfl
  · -- A reading is stored beside the counts.
    have counts : (l.perform (.setTemperature p t)).ledger.hot = l.ledger.hot ∧
        (l.perform (.setTemperature p t)).ledger.cool = l.ledger.cool ∧
        (l.perform (.setTemperature p t)).ledger.relocated = l.ledger.relocated ∧
        (l.perform (.setTemperature p t)).banks = l.banks ∧
        (l.perform (.setTemperature p t)).vaults = l.vaults := by
      simp only [Layer.perform, Layer.setTemperature, bankId?]
      cases l.geometry.holds p <;> exact ⟨rfl, rfl, rfl, rfl, rfl⟩
    rcases counts with ⟨hot, cool, relocated, banks, vaults⟩
    refine ⟨h.congr sound geometry hot cool relocated (congrArg _ banks) (congrArg _ vaults), ?_⟩
    intro id
    rw [Ledger.served, hot, cool, Ledger.served]
  · have changes := runEpoch_changes h.sound
    have ledger : l.runEpoch.2.ledger = l.ledger := (changes_frame changes).ledger
    have ages := changes_ages changes
    refine ⟨h.congr sound geometry ?_ ?_ ?_ (Entry.total_of_ages ages.banks)
      (Entry.total_of_ages ages.vaults), ?_⟩
    · exact congrArg Ledger.hot ledger
    · exact congrArg Ledger.cool ledger
    · exact congrArg Ledger.relocated ledger
    · exact fun id => congrArg (Ledger.served · id) ledger
  · exact ⟨h.congr sound geometry rfl rfl rfl (Entry.total_map fun _ => rfl)
      (Entry.total_map fun _ => rfl), fun _ => rfl⟩

/-- After a reset nothing is counted. -/
theorem Counted.resetCounts (h : l.Counted n) : l.resetCounts.Counted 0 where
  sound := perform_sound h.sound .resetCounts
  sized := h.sized.resetCounts
  bounded := by
    intro id
    rw [Layer.resetCounts, Ledger.foreign_resetCounts]
    exact Nat.zero_le _
  banks := by
    refine Entry.total_eq_zero fun e he => ?_
    rcases Array.mem_map.1 he with ⟨old, _, rfl⟩
    rfl
  vaults := by
    refine Entry.total_eq_zero fun e he => ?_
    rcases Array.mem_map.1 he with ⟨old, _, rfl⟩
    rfl

end Layer

end StackedCache
