import StackedCache.Proofs.Relocation.HotRows

/-!
# Rows that must have a counter

An access takes one from every counter only if no counter is free and its row has none.  With `k`
counters it then leaves `k + 1` accesses without a trace: its own, and one for each counter.  A row
loses at most one of its accesses in this way at a time, so `k + 1` times the accesses that its
counter misses are no more than all accesses less those that the counters hold: `run_frequent`.
-/

namespace StackedCache

/-! ## Tables -/

namespace Table

variable {α : Type} {t : Table α} {key : Nat} {v w : α}

theorem mem_keys_iff : key ∈ t.keys ↔ ∃ v, t.find? key = some v := by
  induction t with
  | nil => simp [keys, find?]
  | cons first t ih =>
      rcases first with ⟨k, u⟩
      simp only [keys, List.map_cons, List.mem_cons, find?] at ih ⊢
      by_cases here : key = k
      · simp [here]
      · simpa [here, Ne.symm here] using ih

/-- A new key adds one entry. -/
theorem insert_perm_of_absent (absent : t.find? key = none) (v : α) :
    (t.insert key v).Perm ((key, v) :: t) := by
  induction t with
  | nil => exact .refl _
  | cons first t ih =>
      rcases first with ⟨k, u⟩
      have other : k ≠ key := by
        intro here
        simp [find?, here] at absent
      have rest : find? t key = none := by simpa [find?, Ne.symm other] using absent
      by_cases before : key < k
      · simp [insert, before]
      · simpa [insert, before, other.symm] using
          ((ih rest).cons (k, u)).trans (List.Perm.swap (key, v) (k, u) t)

/-- A key that is there keeps its entry, with another value. -/
theorem insert_perm_of_found (ascending : t.Ascending) (found : t.find? key = some w) (v : α) :
    ∃ rest, t.Perm ((key, w) :: rest) ∧ (t.insert key v).Perm ((key, v) :: rest) := by
  induction t with
  | nil => cases found
  | cons first t ih =>
      rcases first with ⟨k, u⟩
      have later := ascending
      simp only [Ascending, keys, List.map_cons, List.pairwise_cons] at later
      by_cases here : key = k
      · subst here
        have same : u = w := by simpa [find?] using found
        exact ⟨t, by simp [same], by simp [insert]⟩
      · have found' : find? t key = some w := by simpa [find?, here] using found
        -- The key stands in the rest of the table, so it comes after the first one.
        have after : ¬key < k := by
          have beyond : k < key := later.1 key (mem_keys_iff.2 ⟨w, found'⟩)
          omega
        rcases ih later.2 found' with ⟨rest, before, changed⟩
        refine ⟨(k, u) :: rest, ?_, ?_⟩
        · exact (before.cons (k, u)).trans (List.Perm.swap (key, w) (k, u) rest)
        · simpa [insert, after, here] using
            (changed.cons (k, u)).trans (List.Perm.swap (key, v) (k, u) rest)

theorem find?_map_values (f : α → α) (t : Table α) (key : Nat) :
    find? (List.map (fun entry => (entry.1, f entry.2)) t) key = (t.find? key).map f := by
  induction t with
  | nil => rfl
  | cons first t ih =>
      by_cases here : key = first.1
      · simp [find?, here]
      · simp [find?, here, ih]

end Table

namespace HotRows

variable {h : HotRows} {rows : List Nat} {row n : Nat}

/-! ## Operations -/

/-- What may happen to counters. -/
inductive Operation where
  | record (row : Nat)
  | clear

def perform (h : HotRows) : Operation → HotRows
  | .record row => h.record row
  | .clear => h.clear

/-- Performs operations in order. -/
def run (h : HotRows) (ops : List Operation) : HotRows := ops.foldl perform h

/-- The recorded rows, once an operation has followed them. -/
def recordedAfter (rows : List Nat) : Operation → List Nat
  | .record row => rows ++ [row]
  | .clear => []

/-- The rows that operations record, after the last one that clears the counters. -/
def recorded (ops : List Operation) : List Nat := ops.foldl recordedAfter []

/-- The accesses that the counters hold. -/
def stored (h : HotRows) : Nat := (h.counts.map Prod.snd).sum

/-! ## Counters -/

theorem count_eq_of_found (found : h.counts.find? row = some n) : h.count row = n := by
  simp [count, found]

theorem count_eq_of_absent (absent : h.counts.find? row = none) : h.count row = 0 := by
  simp [count, absent]

theorem count_withCounter (h : HotRows) (row n other : Nat) :
    count { h with counts := h.counts.insert row n } other =
      if other = row then n else h.count other := by
  simp only [count, Table.find?_insert]
  split <;> rfl

/-- A counter of an access less is gone if it was the last one. -/
theorem count_decay (ascending : h.counts.Ascending) (row : Nat) :
    count { h with counts := decay h.counts } row = h.count row - 1 := by
  have lowered : Table.Ascending (h.counts.map fun entry => (entry.1, entry.2 - 1)) := by
    simpa only [Table.Ascending, Table.keys, List.map_map, Function.comp_def] using ascending
  have kept : Table.find? (decay h.counts) row =
      ((h.counts.find? row).map (· - 1)).filter fun n => 0 < n := by
    refine (Table.find?_filter lowered (fun entry => 0 < entry.2) row).trans ?_
    rw [Table.find?_map_values (· - 1)]
  simp only [count, kept]
  cases found : h.counts.find? row with
  | none => rfl
  | some n =>
      by_cases more : 0 < n - 1
      · simp [Option.filter, more]
      · simp only [Option.map_some, Option.filter, more, decide_false, Option.getD_some]
        simp
        omega

/-- Each counter gives one of its accesses. -/
theorem sum_decay {counts : Table Nat} (positive : ∀ entry ∈ counts, 1 ≤ entry.2) :
    ((decay counts).map Prod.snd).sum + counts.length = (counts.map Prod.snd).sum := by
  induction counts with
  | nil => rfl
  | cons first counts ih =>
      have given : 1 ≤ first.2 := positive first List.mem_cons_self
      have rest := ih fun entry member => positive entry (List.mem_cons_of_mem _ member)
      simp only [decay, List.map_cons, List.length_cons, List.sum_cons] at rest ⊢
      by_cases more : 0 < first.2 - 1
      · simp only [List.filter_cons, more, decide_true, if_true, List.map_cons, List.sum_cons]
        omega
      · simp only [List.filter_cons, more, decide_false, Bool.false_eq_true, if_false]
        omega

theorem length_decay_le (counts : Table Nat) : (decay counts).length ≤ counts.length := by
  simpa [decay] using
    List.length_filter_le (fun entry : Nat × Nat => decide (0 < entry.2))
      (counts.map fun entry => (entry.1, entry.2 - 1))

/-! ## Sums -/

/-- The counters sum up the rows, as well as a bounded number of counters can. -/
structure Sums (h : HotRows) (rows : List Nat) : Prop where
  ascending : h.counts.Ascending
  length_le : h.counts.length ≤ h.capacity
  positive : ∀ entry ∈ h.counts, 1 ≤ entry.2
  count_le : ∀ row, h.count row ≤ rows.count row
  /-- What a counter misses is paid for by accesses that no counter holds. -/
  missed : ∀ row,
    (h.capacity + 1) * (rows.count row - h.count row) + h.stored ≤ rows.length

theorem count_concat (rows : List Nat) (row other : Nat) :
    (rows ++ [row]).count other = rows.count other + if other = row then 1 else 0 := by
  by_cases here : other = row
  · simp [here]
  · simp [here, Ne.symm here]

/-- A row that gets a counter, or whose counter moves up, misses nothing of this access. -/
theorem Sums.counted (sums : h.Sums rows) {counts : Table Nat}
    (inserted : counts = h.counts.insert row (h.count row + 1))
    (room : counts.length ≤ h.capacity)
    (grown : (counts.map Prod.snd).sum = h.stored + 1) :
    Sums { h with counts := counts } (rows ++ [row]) := by
  have count : ∀ other, HotRows.count { h with counts := counts } other =
      h.count other + if other = row then 1 else 0 := by
    intro other
    rw [inserted, count_withCounter]
    by_cases here : other = row <;> simp [here]
  refine ⟨?_, room, ?_, fun other => ?_, fun other => ?_⟩
  · exact inserted ▸ sums.ascending.insert row _
  · intro entry member
    rcases Table.mem_of_mem_insert (inserted ▸ member : entry ∈ h.counts.insert row _) with
      rfl | old
    · exact Nat.succ_pos _
    · exact sums.positive entry old
  · rw [count, count_concat]
    exact Nat.add_le_add_right (sums.count_le other) _
  · have missed := sums.missed other
    -- The access moves the frequency and the counter of its row, so what is missed stays.
    have same : rows.count other + (if other = row then 1 else 0) -
        (h.count other + if other = row then 1 else 0) = rows.count other - h.count other :=
      Nat.add_sub_add_right ..
    rw [count, count_concat, same, List.length_append]
    simp only [stored, grown, List.length_singleton] at missed ⊢
    omega

/-- An access for which there is no counter takes one from each of them. -/
theorem Sums.decayed (sums : h.Sums rows) (absent : h.counts.find? row = none)
    (full : h.counts.length = h.capacity) :
    Sums { h with counts := decay h.counts } (rows ++ [row]) := by
  have count := count_decay sums.ascending
  have untracked : h.count row = 0 := count_eq_of_absent absent
  have sum := sum_decay sums.positive
  refine ⟨Ascending.decay sums.ascending, ?_, ?_, fun other => ?_, fun other => ?_⟩
  · exact Nat.le_trans (length_decay_le _) sums.length_le
  · intro entry member
    exact of_decide_eq_true (List.mem_filter.1 member).2
  · rw [count, count_concat]
    have := sums.count_le other
    omega
  · have missed := sums.missed other
    have below := sums.count_le other
    -- Its own row misses one access more, and so does every row with a counter.
    have once : (rows ++ [row]).count other - (h.count other - 1) ≤
        rows.count other - h.count other + 1 := by
      rw [count_concat]
      split
      · rename_i here
        subst here
        omega
      · omega
    have paid := Nat.mul_le_mul_left (h.capacity + 1) once
    rw [count, List.length_append, List.length_singleton]
    rw [Nat.mul_add, Nat.mul_one] at paid
    simp only [stored] at missed ⊢
    omega

/-- An access whose row has a counter moves it up, or takes a free one, or takes one from all. -/
theorem Sums.record (sums : h.Sums rows) (row : Nat) : (h.record row).Sums (rows ++ [row]) := by
  unfold HotRows.record
  cases found : h.counts.find? row with
  | some n =>
      have here : h.count row = n := count_eq_of_found found
      rcases Table.insert_perm_of_found sums.ascending found (n + 1) with ⟨rest, before, after⟩
      have length : (h.counts.insert row (n + 1)).length = h.counts.length :=
        after.length_eq.trans before.length_eq.symm
      have grown : ((h.counts.insert row (n + 1)).map Prod.snd).sum = h.stored + 1 := by
        have old : h.stored = n + (rest.map Prod.snd).sum := (before.map Prod.snd).sum_nat
        have new : ((h.counts.insert row (n + 1)).map Prod.snd).sum =
            n + 1 + (rest.map Prod.snd).sum := (after.map Prod.snd).sum_nat
        omega
      exact sums.counted (here.symm ▸ rfl) (length ▸ sums.length_le) grown
  | none =>
      have here : h.count row = 0 := count_eq_of_absent found
      by_cases free : h.counts.length < h.capacity
      · have after := Table.insert_perm_of_absent found 1
        have grown : ((h.counts.insert row 1).map Prod.snd).sum = h.stored + 1 := by
          have new : ((h.counts.insert row 1).map Prod.snd).sum = 1 + h.stored :=
            (after.map Prod.snd).sum_nat
          omega
        simp only [free, if_true]
        exact sums.counted (here.symm ▸ rfl) (after.length_eq ▸ free) grown
      · simp only [free, if_false]
        exact sums.decayed found (Nat.le_antisymm sums.length_le (Nat.not_lt.1 free))

theorem clear_sums (h : HotRows) : h.clear.Sums [] :=
  ⟨List.Pairwise.nil, Nat.zero_le _, nofun, fun _ => Nat.le_refl _, fun _ => Nat.le_refl _⟩

theorem Sums.perform (sums : h.Sums rows) (op : Operation) :
    (h.perform op).Sums (recordedAfter rows op) := by
  cases op with
  | record row => exact sums.record row
  | clear => exact h.clear_sums

theorem perform_capacity (h : HotRows) (op : Operation) : (h.perform op).capacity = h.capacity := by
  cases op with
  | record row =>
      simp only [perform, record]
      split
      · rfl
      · split <;> rfl
  | clear => rfl

/-- Every operation keeps the counters and the rows they sum up together. -/
theorem Sums.run (sums : h.Sums rows) (ops : List Operation) :
    (h.run ops).Sums (ops.foldl recordedAfter rows) ∧ (h.run ops).capacity = h.capacity := by
  induction ops generalizing h rows with
  | nil => exact ⟨sums, rfl⟩
  | cons op ops ih =>
      rcases ih (sums.perform op) with ⟨later, capacity⟩
      exact ⟨later, capacity.trans (h.perform_capacity op)⟩

/-! ## Ranks -/

/-- One row ranks before another: its counter is higher or, if both are equal, its number lower. -/
def Precedes (h : HotRows) (row other : Nat) : Prop :=
  h.count other < h.count row ∨ h.count row = h.count other ∧ row < other

theorem ranked_perm (h : HotRows) : h.ranked.Perm h.counts := List.mergeSort_perm _ _

/-- Equal counters stay in the order of their rows. -/
theorem ranked_filter (h : HotRows) (n : Nat) :
    h.ranked.filter (fun entry => entry.2 = n) = h.counts.filter (fun entry => entry.2 = n) := by
  have equal : (h.counts.filter (fun entry => entry.2 = n)).Pairwise
      (fun a b => decide (b.2 ≤ a.2) = true) := by
    refine List.pairwise_of_forall_mem_list fun a ha b hb => ?_
    have first : a.2 = n := of_decide_eq_true (List.mem_filter.1 ha).2
    have second : b.2 = n := of_decide_eq_true (List.mem_filter.1 hb).2
    exact decide_eq_true (Nat.le_of_eq (second.trans first.symm))
  -- Sorting is stable: what is in order already stays as it is.
  have stays : (h.counts.filter (fun entry => entry.2 = n)).Sublist h.ranked :=
    List.sublist_mergeSort (by grind) (by grind) equal List.filter_sublist
  have inside : (h.counts.filter (fun entry => entry.2 = n)).Sublist
      (h.ranked.filter (fun entry => entry.2 = n)) := by
    simpa [List.filter_filter] using stays.filter (fun entry => entry.2 = n)
  have length := (h.ranked_perm.filter (fun entry => decide (entry.2 = n))).length_eq
  exact (inside.eq_of_length length.symm).symm

theorem ranked_precedes (ascending : h.counts.Ascending) :
    (h.ranked.map Prod.fst).Pairwise h.Precedes := by
  have counter : ∀ entry ∈ h.ranked, h.count entry.1 = entry.2 := fun entry member =>
    count_eq_of_found (Table.find?_of_mem ascending (h.ranked_perm.mem_iff.1 member))
  have falling : h.ranked.Pairwise fun a b => decide (b.2 ≤ a.2) = true :=
    List.pairwise_mergeSort (by grind) (by grind) _
  have rows : h.counts.Pairwise fun a b => a.1 < b.1 := List.pairwise_map.1 ascending
  rw [List.pairwise_map, List.pairwise_iff_forall_sublist]
  intro a b pair
  have here : h.count a.1 = a.2 := counter a (pair.mem List.mem_cons_self)
  have there : h.count b.1 = b.2 := counter b (pair.mem (by simp))
  have le : b.2 ≤ a.2 := of_decide_eq_true (List.pairwise_iff_forall_sublist.1 falling pair)
  unfold Precedes
  rw [here, there]
  rcases Nat.lt_or_eq_of_le le with lower | equal
  · exact .inl lower
  · -- Both stand in the table, and there in this order.
    have same : [a, b].Sublist (h.ranked.filter fun entry => entry.2 = a.2) := by
      simpa [equal] using pair.filter fun entry => decide (entry.2 = a.2)
    rw [ranked_filter] at same
    have ordered := List.pairwise_iff_forall_sublist.1 rows (same.trans List.filter_sublist)
    exact .inr ⟨equal.symm, ordered⟩

/-- The rows that are listed come first in the ranking of all rows with a counter. -/
theorem hottest_ranks (ascending : h.counts.Ascending) (j : Nat) :
    (h.hottest j).length = min j h.counts.length ∧
      (∀ row ∈ h.hottest j, row ∈ h.counts.keys) ∧
      (h.hottest j).Pairwise h.Precedes ∧
      ∀ row ∈ h.counts.keys, row ∉ h.hottest j → ∀ listed ∈ h.hottest j, h.Precedes listed row := by
  have listed : h.hottest j = (h.ranked.map Prod.fst).take j := List.map_take
  have keys : (h.ranked.map Prod.fst).Perm h.counts.keys := h.ranked_perm.map Prod.fst
  have ordered := ranked_precedes ascending
  rw [← List.take_append_drop j (h.ranked.map Prod.fst), ← listed, List.pairwise_append] at ordered
  refine ⟨?_, fun row member => ?_, ordered.1, fun row member unlisted first hfirst => ?_⟩
  · rw [listed, List.length_take, List.length_map, h.ranked_perm.length_eq]
  · exact keys.mem_iff.1 (List.mem_of_mem_take (listed ▸ member))
  · have ranked := keys.mem_iff.2 member
    rw [← List.take_append_drop j (h.ranked.map Prod.fst), ← listed] at ranked
    have rest := (List.mem_append.1 ranked).resolve_left unlisted
    exact ordered.2.2 first hfirst row rest

/-! ## Runs -/

/-- Wherever operations lead `k` counters, no counter is zero, and a counter is never above the
number of accesses to its row since the last time that all counters were cleared.  For each access
that the counter of a row misses there are `k + 1` accesses that no counter holds.  So a row with more
than one in `k + 1` of all accesses has a counter.  The rows with the highest counters are listed by
their counters, and those with the same counter by their numbers. -/
theorem run_frequent (k : Nat) (ops : List Operation) :
    let h := run { capacity := k } ops
    let rows := recorded ops
    h.counts.length ≤ k ∧ (∀ entry ∈ h.counts, 1 ≤ entry.2) ∧
    (∀ row, h.count row ≤ rows.count row ∧
      (k + 1) * (rows.count row - h.count row) + h.stored ≤ rows.length) ∧
    (∀ row, rows.length < rows.count row * (k + 1) → row ∈ h.counts.keys) ∧
    ∀ j, (h.hottest j).length = min j h.counts.length ∧ (h.hottest j).Nodup ∧
      (∀ row ∈ h.hottest j, row ∈ h.counts.keys) ∧
      (h.hottest j).Pairwise (fun a b => h.count b < h.count a ∨ h.count a = h.count b ∧ a < b) ∧
      ∀ row ∈ h.counts.keys, row ∉ h.hottest j → ∀ listed ∈ h.hottest j,
        h.count row < h.count listed ∨ h.count listed = h.count row ∧ listed < row := by
  intro h rows
  rcases (clear_sums { capacity := k }).run ops with ⟨sums, capacity⟩
  have sums : h.Sums rows := sums
  have capacity : h.capacity = k := capacity
  have missed := sums.missed
  rw [capacity] at missed
  refine ⟨capacity ▸ sums.length_le, sums.positive, fun row => ⟨sums.count_le row, missed row⟩,
    fun row frequent => ?_, fun j => ?_⟩
  · -- Without a counter the row would miss all its accesses.
    refine Classical.byContradiction fun untracked => ?_
    have absent : h.count row = 0 := by
      cases found : h.counts.find? row with
      | none => exact count_eq_of_absent found
      | some n => exact absurd (Table.mem_keys_iff.2 ⟨n, found⟩) untracked
    have bound := missed row
    rw [absent, Nat.sub_zero, Nat.mul_comm] at bound
    omega
  · rcases hottest_ranks sums.ascending j with ⟨length, tracked, ordered, top⟩
    exact ⟨length, hottest_nodup sums.ascending j, tracked, ordered, top⟩

/-- The last access finds no free counter, so of the four accesses three leave no trace. -/
example : (run { capacity := 2 } [.record 1, .record 1, .record 2, .record 3]).counts = [(1, 1)] := by
  decide

end HotRows

end StackedCache
