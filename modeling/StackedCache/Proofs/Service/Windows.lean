import Mathlib.Data.Nat.ModEq
import StackedCache.Service.Segment

/-!
# Windows of a segment

A segment counts the accesses of its present window only.  But the slot that it holds, and what an
access finds and does, can be told from whole windows: during each window it holds the slot that was
used most in the window before, and the last access of a window changes the slot: `accessAll_windows`.
-/

namespace StackedCache.Segment

/-! ## The first greatest count -/

/-- The count at an index is the greatest, and no count before it is as great. -/
structure Leads (counts : List Nat) (winner most : Nat) : Prop where
  present : counts[winner]? = some most
  greatest : ∀ i n : Nat, counts[i]? = some n → n ≤ most
  first : ∀ i n : Nat, counts[i]? = some n → i < winner → n < most

variable {counts : List Nat} {winner most n : Nat}

/-- An index of a list with one more count is an old one, or the new one. -/
theorem getElem?_concat_cases {i m : Nat} (found : (counts ++ [n])[i]? = some m) :
    i < counts.length ∧ counts[i]? = some m ∨ i = counts.length ∧ m = n := by
  rcases Nat.lt_or_ge i counts.length with old | new
  · exact .inl ⟨old, List.getElem?_append_left old ▸ found⟩
  · rw [List.getElem?_append_right new, List.getElem?_singleton] at found
    split at found <;> cases found
    exact .inr ⟨by omega, rfl⟩

/-- The winner among the counts so far stays ahead of a count that is not greater. -/
theorem Leads.stays (leads : Leads counts winner most) (le : n ≤ most) :
    Leads (counts ++ [n]) winner most := by
  have inside : winner < counts.length := (List.getElem?_eq_some_iff.1 leads.present).1
  refine ⟨?_, fun i m found => ?_, fun i m found before => ?_⟩
  · simpa [List.getElem?_append_left inside] using leads.present
  · rcases getElem?_concat_cases found with ⟨_, old⟩ | ⟨_, rfl⟩
    · exact leads.greatest i m old
    · exact le
  · rcases getElem?_concat_cases found with ⟨_, old⟩ | ⟨rfl, _⟩
    · exact leads.first i m old before
    · exact absurd before (Nat.lt_asymm inside)

/-- A greater count takes the lead. -/
theorem Leads.overtaken (leads : Leads counts winner most) (lt : most < n) :
    Leads (counts ++ [n]) counts.length n := by
  have behind : ∀ i m : Nat, counts[i]? = some m → m < n := fun i m old =>
    Nat.lt_of_le_of_lt (leads.greatest i m old) lt
  refine ⟨List.getElem?_concat_length, fun i m found => ?_, fun i m found before => ?_⟩
  · rcases getElem?_concat_cases found with ⟨_, old⟩ | ⟨_, rfl⟩
    · exact Nat.le_of_lt (behind i m old)
    · exact Nat.le_refl m
  · rcases getElem?_concat_cases found with ⟨_, old⟩ | ⟨rfl, _⟩
    · exact behind i m old
    · exact absurd before (Nat.lt_irrefl _)

theorem busiestFrom_leads (rest : List Nat) (leads : Leads counts winner most) :
    ∃ most', Leads (counts ++ rest) (busiestFrom rest counts.length most winner) most' := by
  -- On the counts that are left; those before them have a winner.
  induction rest generalizing counts winner most with
  | nil => exact ⟨most, by simpa [busiestFrom] using leads⟩
  | cons n rest ih =>
      have length : (counts ++ [n]).length = counts.length + 1 := List.length_append
      by_cases lt : most < n
      · simpa [busiestFrom, lt, length] using ih (leads.overtaken lt)
      · simpa [busiestFrom, lt, length] using ih (leads.stays (Nat.not_lt.1 lt))

theorem busiest_leads (some_count : counts ≠ []) : ∃ most, Leads counts (busiest counts) most := by
  cases counts with
  | nil => exact absurd rfl some_count
  | cons n rest =>
      have alone : Leads [n] 0 n := by
        refine ⟨rfl, fun i m found => ?_, fun i m _ before => absurd before (Nat.not_lt_zero i)⟩
        cases List.mem_singleton.1 (List.mem_of_getElem? found)
        exact Nat.le_refl n
      exact busiestFrom_leads rest alone

/-! ## Slots and their accesses -/

variable {slots window slot : Nat} {used accesses before rest : List Nat} {s : Segment}

/-- How often each slot was used. -/
def tally (slots : Nat) (used : List Nat) : List Nat :=
  (List.range slots).map fun slot => used.count slot

theorem getElem?_tally (slots : Nat) (used : List Nat) (slot : Nat) :
    (tally slots used)[slot]? = if slot < slots then some (used.count slot) else none := by
  by_cases inside : slot < slots <;> simp [tally, inside]

theorem tally_modify (slots : Nat) (used : List Nat) (slot : Nat) :
    (tally slots used).modify slot (· + 1) = tally slots (used ++ [slot]) := by
  apply List.ext_getElem?
  intro i
  rw [List.getElem?_modify, getElem?_tally, getElem?_tally]
  by_cases inside : i < slots
  · by_cases here : slot = i <;> simp [inside, here]
  · simp [inside]

theorem map_zero_tally (slots : Nat) (used : List Nat) :
    (tally slots used).map (fun _ => 0) = tally slots [] := by
  rw [tally, tally, List.map_map]
  exact List.map_congr_left fun _ _ => rfl

/-- The first slot that no slot was used more often than. -/
def mostUsed (slots : Nat) (used : List Nat) : Nat :=
  ((List.range slots).find? fun slot =>
    (List.range slots).all fun other => used.count other ≤ used.count slot).getD 0

theorem Leads.mostUsed (leads : Leads (tally slots used) winner most) :
    mostUsed slots used = winner := by
  have inside : winner < slots := by
    have := (List.getElem?_eq_some_iff.1 leads.present).1
    simpa [tally] using this
  have here : used.count winner = most := by
    have := leads.present
    simpa [getElem?_tally, inside] using this
  have count : ∀ other < slots, (tally slots used)[other]? = some (used.count other) :=
    fun other lt => by simp [getElem?_tally, lt]
  -- It passes the test, and whatever comes before it fails against it.
  have found : (List.range slots).find? (fun slot =>
      (List.range slots).all fun other => used.count other ≤ used.count slot) = some winner := by
    rw [List.find?_range_eq_some]
    refine ⟨?_, List.mem_range.2 inside, fun slot earlier => ?_⟩
    · simp only [List.all_eq_true, List.mem_range, decide_eq_true_eq]
      exact fun other lt => here ▸ leads.greatest other _ (count other lt)
    · have less := leads.first slot _ (count slot (Nat.lt_trans earlier inside)) earlier
      simp only [Bool.not_eq_true', List.all_eq_false, List.mem_range, decide_eq_true_eq]
      exact ⟨winner, inside, by omega⟩
  rw [Segment.mostUsed, found, Option.getD_some]

theorem exists_leads_tally (positive : 0 < slots) (used : List Nat) :
    ∃ most, Leads (tally slots used) (busiest (tally slots used)) most := by
  refine busiest_leads fun empty => ?_
  have length : (tally slots used).length = slots := by simp [tally]
  rw [empty] at length
  exact Nat.ne_of_lt positive length

theorem busiest_tally (positive : 0 < slots) (used : List Nat) :
    busiest (tally slots used) = mostUsed slots used := by
  rcases exists_leads_tally positive used with ⟨most, leads⟩
  exact leads.mostUsed.symm

/-- It was used as often as any slot, and more often than those before it. -/
theorem mostUsed_first (positive : 0 < slots) (used : List Nat) :
    mostUsed slots used < slots ∧ ∀ slot < slots,
      used.count slot ≤ used.count (mostUsed slots used) ∧
        (slot < mostUsed slots used → used.count slot < used.count (mostUsed slots used)) := by
  rcases exists_leads_tally positive used with ⟨most, leads⟩
  rw [← leads.mostUsed] at leads
  have present := leads.present
  rw [getElem?_tally] at present
  split at present
  · rename_i inside
    cases present
    have count : ∀ slot < slots, (tally slots used)[slot]? = some (used.count slot) :=
      fun slot lt => by simp [getElem?_tally, lt]
    exact ⟨inside, fun slot lt =>
      ⟨leads.greatest slot _ (count slot lt), leads.first slot _ (count slot lt)⟩⟩
  · cases present

/-! ## Whole windows -/

/-- The slots that are accessed in a window; slot numbers wrap around. -/
def usedIn (slots window : Nat) (accesses : List Nat) (w : Nat) : List Nat :=
  ((accesses.drop (w * window)).take window).map (· % slots)

/-- The slot that should be the resident one during a window. -/
def residentIn (slots window : Nat) (accesses : List Nat) : Nat → Nat
  | 0 => 0
  | w + 1 => mostUsed slots (usedIn slots window accesses w)

/-- What the access with this index should find and do: it finds the slot of its window, and if it is
the last one there, it brings in the slot of the next window. -/
def accessIn (slots window : Nat) (accesses : List Nat) (i slot : Nat) : SegmentAccess :=
  let resident := residentIn slots window accesses (i / window)
  let next := residentIn slots window accesses (i / window + 1)
  { hit := slot % slots = resident
    swapped := (i + 1) % window = 0 ∧ next ≠ resident }

/-- The slots that have been accessed in a window that has begun but not ended. -/
def usedSoFar (slots window : Nat) (accesses : List Nat) : List Nat :=
  (accesses.drop (accesses.length / window * window)).map (· % slots)

/-- The next access belongs to the same window, or it is the last one there. -/
theorem window_cases (positive : 0 < window) (i : Nat) :
    (i % window + 1 < window ∧ (i + 1) / window = i / window ∧
        (i + 1) % window = i % window + 1) ∨
      (i % window + 1 = window ∧ (i + 1) / window = i / window + 1 ∧ (i + 1) % window = 0) := by
  have split : window * (i / window) + i % window = i := Nat.div_add_mod i window
  have rest : i % window < window := Nat.mod_lt i positive
  rcases Nat.lt_or_eq_of_le (Nat.succ_le_of_lt rest) with more | last
  · refine .inl ⟨more, (Nat.div_mod_unique positive).2 ⟨?_, more⟩⟩
    omega
  · refine .inr ⟨last, (Nat.div_mod_unique positive).2 ⟨?_, positive⟩⟩
    rw [Nat.mul_add, Nat.mul_one]
    omega

/-- Within a window, an access adds its slot to those before it. -/
theorem usedSoFar_concat (same : (before.length + 1) / window = before.length / window) (slot : Nat) :
    usedSoFar slots window (before ++ [slot]) =
      usedSoFar slots window before ++ [slot % slots] := by
  have within : before.length / window * window ≤ before.length := Nat.div_mul_le_self ..
  simp [usedSoFar, same, List.drop_append_of_le_length within]

/-- The last access of a window completes it. -/
theorem usedIn_eq (last : before.length % window + 1 = window) (slot : Nat) (rest : List Nat) :
    usedIn slots window (before ++ slot :: rest) (before.length / window) =
      usedSoFar slots window before ++ [slot % slots] := by
  have split : before.length / window * window + before.length % window = before.length :=
    Nat.div_add_mod' ..
  have within : before.length / window * window ≤ before.length := Nat.div_mul_le_self ..
  have length : (before.drop (before.length / window * window)).length + 1 = window := by
    rw [List.length_drop]
    omega
  have whole : ((before ++ slot :: rest).drop (before.length / window * window)).take window =
      before.drop (before.length / window * window) ++ [slot] :=
    calc
      _ = (before.drop (before.length / window * window) ++ slot :: rest).take
          ((before.drop (before.length / window * window)).length + 1) := by
            rw [List.drop_append_of_le_length within, length]
      _ = before.drop (before.length / window * window) ++ [slot] := by
            rw [List.take_length_add_append, List.take_one, List.head?_cons, Option.toList_some]
  simp only [usedIn, usedSoFar, whole, List.map_append, List.map_cons, List.map_nil]

/-! ## Runs -/

/-- Accesses slots in order: what the accesses found and did, and the segment after them. -/
def accessAll : Segment → List Nat → List SegmentAccess × Segment
  | s, [] => ([], s)
  | s, slot :: slots =>
      let (found, s) := s.access slot
      let (more, s) := accessAll s slots
      (found :: more, s)

/-- After some of the accesses, the segment is as the windows tell. -/
structure At (slots window : Nat) (accesses before : List Nat) (s : Segment) : Prop where
  size : s.window = window
  resident : s.resident = residentIn slots window accesses (before.length / window)
  count : s.count = before.length % window
  counters : s.slots = tally slots (usedSoFar slots window before)

theorem ofSize_at (hslots : 1 ≤ slots) (hwindow : 1 ≤ window) (accesses : List Nat) :
    At slots window accesses [] (ofSize slots window) := by
  refine ⟨Nat.max_eq_left hwindow, ?_, ?_, ?_⟩
  · simp [ofSize, residentIn]
  · simp [ofSize]
  · simp [ofSize, tally, usedSoFar, Nat.max_eq_left hslots, List.map_const']

theorem At.counted (h : At slots window accesses before s) (slot : Nat) :
    (s.counted (slot % slots)).slots =
      tally slots (usedSoFar slots window before ++ [slot % slots]) := by
  simp [Segment.counted, h.counters, tally_modify]

/-- An access finds and does what the windows tell, and leads on to where they tell. -/
theorem At.access (hslots : 1 ≤ slots) (hwindow : 1 ≤ window)
    (h : At slots window (before ++ slot :: rest) before s) :
    (s.access slot).1 = accessIn slots window (before ++ slot :: rest) before.length slot ∧
      At slots window (before ++ slot :: rest) (before ++ [slot]) (s.access slot).2 := by
  have number : s.slots.length = slots := by simp [h.counters, tally]
  have count : (s.counted (slot % slots)).count = before.length % window + 1 := by
    simp [Segment.counted, h.count]
  have size : (s.counted (slot % slots)).window = window := h.size
  have length : (before ++ [slot]).length = before.length + 1 := List.length_append
  unfold Segment.access
  rw [number]
  rcases window_cases hwindow before.length with ⟨more, same, next⟩ | ⟨last, later, next⟩
  · -- The window goes on, with the slot of the access added to it.
    have open_ : (s.counted (slot % slots)).count < (s.counted (slot % slots)).window := by
      omega
    simp only [open_, if_true]
    refine ⟨?_, size, ?_, ?_, ?_⟩
    · simp [accessIn, h.resident, next]
    · rw [length, same]
      exact h.resident
    · rw [count, length, next]
    · rw [h.counted, usedSoFar_concat same]
  · -- The window ends, and all its accesses are in the counters.
    have closed : ¬(s.counted (slot % slots)).count < (s.counted (slot % slots)).window := by
      omega
    have winner : busiest (s.counted (slot % slots)).slots =
        residentIn slots window (before ++ slot :: rest) (before.length / window + 1) := by
      rw [h.counted, busiest_tally hslots, residentIn, usedIn_eq last]
    simp only [closed, if_false, winner]
    refine ⟨?_, size, ?_, ?_, ?_⟩
    · simp [accessIn, Segment.counted, h.resident, next]
    · simp [restarted, length, later]
    · simp [restarted, length, next]
    · have fresh : usedSoFar slots window (before ++ [slot]) = [] := by
        have begun : (before.length + 1) / window * window = before.length + 1 := by
          simpa [next] using Nat.div_add_mod' (before.length + 1) window
        simp [usedSoFar, begun]
      rw [fresh]
      simp only [restarted]
      rw [h.counted, map_zero_tally]

theorem At.accessAll (hslots : 1 ≤ slots) (hwindow : 1 ≤ window)
    (h : At slots window (before ++ rest) before s) :
    (s.accessAll rest).1 = rest.mapIdx (fun i slot =>
        accessIn slots window (before ++ rest) (before.length + i) slot) ∧
      At slots window (before ++ rest) (before ++ rest) (s.accessAll rest).2 := by
  -- On the accesses to come; those before them are known to the windows.
  induction rest generalizing before s with
  | nil => exact ⟨rfl, by simpa [Segment.accessAll] using h⟩
  | cons slot rest ih =>
      rcases h.access hslots hwindow with ⟨found, now⟩
      have split : before ++ slot :: rest = before ++ [slot] ++ rest := by simp
      rw [split] at now
      rcases ih now with ⟨more, later⟩
      refine ⟨?_, split ▸ later⟩
      have number : ∀ i, (before ++ [slot]).length + i = before.length + (i + 1) := by
        intro i
        rw [List.length_append, List.length_singleton, Nat.add_assoc, Nat.add_comm 1]
      simp only [Segment.accessAll, found, more, List.mapIdx_cons, Nat.add_zero, ← split, number]

/-- A window that has begun and not ended has fewer accesses than a whole one. -/
theorem At.count_lt (hwindow : 1 ≤ window) (h : At slots window accesses before s) :
    s.count < window := h.count ▸ Nat.mod_lt _ hwindow

/-- No slot was accessed more often than all slots together. -/
theorem At.le_count (h : At slots window accesses before s) : ∀ n ∈ s.slots, n ≤ s.count := by
  intro n member
  rw [h.counters, tally, List.mem_map] at member
  rcases member with ⟨slot, _, rfl⟩
  have length : (usedSoFar slots window before).length = before.length % window := by
    have split : before.length / window * window + before.length % window = before.length :=
      Nat.div_add_mod' ..
    rw [usedSoFar, List.length_map, List.length_drop]
    omega
  rw [h.count, ← length]
  exact List.count_le_length

/-- A segment of one or more slots and with a window of one or more accesses finds and does what the
windows of its accesses tell.  It starts with slot 0, and in each later window it holds the slot that
was used most in the window before, the first one if there are several.  Its counters are those of the
window that has not ended; so while another access is counted, none of them passes the size of a
window, and they fit into as many bits as it does. -/
theorem accessAll_windows {slots window : Nat} (hslots : 1 ≤ slots) (hwindow : 1 ≤ window)
    (accesses : List Nat) :
    let resident := residentIn slots window accesses
    let s := ((ofSize slots window).accessAll accesses).2
    ((ofSize slots window).accessAll accesses).1 = accesses.mapIdx (fun i slot =>
      { hit := slot % slots = resident (i / window)
        swapped := (i + 1) % window = 0 ∧ resident (i / window + 1) ≠ resident (i / window) }) ∧
    resident 0 = 0 ∧
    (∀ w, resident (w + 1) < slots ∧ ∀ slot < slots,
      let used := ((accesses.drop (w * window)).take window).map (· % slots)
      used.count slot ≤ used.count (resident (w + 1)) ∧
        (slot < resident (w + 1) → used.count slot < used.count (resident (w + 1)))) ∧
    s.resident = resident (accesses.length / window) ∧
    s.count = accesses.length % window ∧
    s.slots = (List.range slots).map (fun slot =>
      ((accesses.drop (accesses.length / window * window)).map (· % slots)).count slot) ∧
    ∀ slot, (s.counted slot).count ≤ window ∧ ∀ n ∈ (s.counted slot).slots, n ≤ window := by
  intro resident s
  have start : At slots window ([] ++ accesses) [] (ofSize slots window) :=
    ofSize_at hslots hwindow accesses
  rcases start.accessAll hslots hwindow with ⟨found, later⟩
  have now : At slots window accesses accesses s := later
  refine ⟨?_, rfl, fun w => mostUsed_first hslots _, now.resident, now.count, now.counters,
    fun slot => ⟨now.count_lt hwindow, fun n member => ?_⟩⟩
  · simp only [List.length_nil, Nat.zero_add] at found
    exact found
  · -- One of the counters may be one up.
    rcases List.mem_iff_getElem?.1 member with ⟨i, here⟩
    simp only [counted, List.getElem?_modify] at here
    rcases Option.map_eq_some_iff.1 here with ⟨m, old, rfl⟩
    have below := now.le_count m (List.mem_of_getElem? old)
    have room := now.count_lt hwindow
    split <;> omega

/-- The first window brings in slot 1, which is found once in the second one; there it shares the
first place with slot 2, and stays. -/
theorem accessAll_windows_tie :
    1 ≤ 3 ∧ 1 ≤ 2 ∧
      ((ofSize 3 2).accessAll [1, 4, 1, 2, 5]).1 =
        [⟨false, false⟩, ⟨false, true⟩, ⟨true, false⟩, ⟨false, false⟩, ⟨false, false⟩] ∧
      ((ofSize 3 2).accessAll [1, 4, 1, 2, 5]).2.resident = 1 ∧
      ((ofSize 3 2).accessAll [1, 4, 1, 2, 5]).2.slots = [0, 0, 1] := by
  have slots : 1 ≤ 3 := by decide
  have window : 1 ≤ 2 := by decide
  rcases accessAll_windows slots window [1, 4, 1, 2, 5] with
    ⟨found, _, _, resident, _, counters, _⟩
  refine ⟨slots, window, found.trans ?_, resident.trans ?_, counters.trans ?_⟩ <;> decide

end StackedCache.Segment
