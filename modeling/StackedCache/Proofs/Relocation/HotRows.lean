import StackedCache.Proofs.Relocation.Aging
import StackedCache.Proofs.Relocation.Journal

/-!
# Counted rows are distinct

A row has at most one counter, so no row is chosen twice for a move.  Epochs leave the counters of
all banks alone.
-/

namespace StackedCache

namespace HotRows

variable {h : HotRows}

theorem Ascending.decay {counts : Table Nat} (h : counts.Ascending) : (decay counts).Ascending := by
  unfold HotRows.decay
  apply Table.Ascending.filter
  simpa only [Table.Ascending, Table.keys, List.map_map, Function.comp_def] using h

theorem record_ascending (ascending : h.counts.Ascending) (row : Nat) :
    (h.record row).counts.Ascending := by
  unfold record
  split
  · exact ascending.insert row _
  · split
    · exact ascending.insert row 1
    · exact Ascending.decay ascending

/-- The most used rows are different rows. -/
theorem hottest_nodup (ascending : h.counts.Ascending) (k : Nat) : (h.hottest k).Nodup := by
  have keys : (h.counts.map Prod.fst).Nodup := ascending.imp Nat.ne_of_lt
  have ranked : (h.ranked.map Prod.fst).Nodup :=
    ((List.mergeSort_perm h.counts _).map Prod.fst).nodup_iff.2 keys
  exact (List.Sublist.map Prod.fst (List.take_sublist k h.ranked)).nodup ranked

end HotRows

namespace Layer

variable {l l' : Layer}

/-- The counters of each bank are those of different rows. -/
def RowsDistinct (l : Layer) : Prop :=
  ∀ id entry, l.bank? id = some entry → entry.hotRows.counts.Ascending

theorem RowsDistinct.ages (h : l.RowsDistinct) (aged : Ages l l') : l'.RowsDistinct := by
  intro id entry hentry
  have rel := aged.banks id
  rw [hentry] at rel
  cases hold : l.bank? id with
  | none =>
      rw [hold] at rel
      cases rel
  | some old =>
      rw [hold] at rel
      cases rel with
      | some same =>
          rw [same.hotRows]
          exact h id old hold

theorem RowsDistinct.perform (h : l.RowsDistinct) (sound : l.Sound) (op : Operation) :
    (l.perform op).RowsDistinct := by
  cases op with
  | setTemperature p t =>
      rcases perform_setTemperature l p t with ⟨ledger, stored⟩
      rw [stored]
      exact h
  | recordAccess row requests =>
      rcases perform_recordAccess l row requests with refused | ⟨ledger, recorded⟩
      · rwa [refused]
      · rw [recorded]
        intro id entry hentry
        have hentry : (Layer.modifyBank { l with ledger := ledger } (l.geometry.bankId row.place)
            (·.recordAccess row.row requests)).bank? id = some entry := hentry
        rw [bank?_modifyBank] at hentry
        split at hentry
        · rcases Option.map_eq_some_iff.1 hentry with ⟨old, hold, rfl⟩
          exact HotRows.record_ascending (h id old hold) row.row
        · exact h id entry hentry
  | runEpoch =>
      have start : l.nextEpoch.layer.RowsDistinct := h
      exact start.ages (changes_ages (runEpoch_changes sound))
  | settle =>
      intro id entry hentry
      simp only [Layer.perform, bank?_settle] at hentry
      rcases Option.map_eq_some_iff.1 hentry with ⟨old, hold, rfl⟩
      exact h id old hold
  | resetCounts =>
      intro id entry hentry
      simp only [Layer.perform, bank?_resetCounts] at hentry
      rcases Option.map_eq_some_iff.1 hentry with ⟨old, hold, rfl⟩
      exact List.Pairwise.nil

theorem run_rowsDistinct (s : RelocationSettings) (g : Geometry) (ops : List Operation) :
    ((ofSettings s g).run ops).RowsDistinct := by
  have start : (ofSettings s g).RowsDistinct := by
    intro id entry hentry
    simp only [ofSettings, bank?, Array.getElem?_map] at hentry
    rcases Option.map_eq_some_iff.1 hentry with ⟨i, _, rfl⟩
    exact List.Pairwise.nil
  have sound := ofSettings_sound s g
  generalize ofSettings s g = l at start sound
  induction ops generalizing l with
  | nil => exact start
  | cons op ops ih => exact ih _ (start.perform sound op) (perform_sound sound op)

end Layer

end StackedCache
