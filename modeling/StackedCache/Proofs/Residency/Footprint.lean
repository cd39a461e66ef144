import StackedCache.Proofs.Residency.Shelf
import StackedCache.Residency.Footprint

/-!
# What a footprint history predicts

A recorded footprint is what is predicted from then on for all blocks with the same remainder, and
other predictions stay.  Footprints and predictions are compared as sets of block numbers.
-/

namespace StackedCache

namespace BlockSet

theorem blocks_inter (s t : BlockSet) : (s.inter t).blocks = s.blocks ∩ t.blocks := by
  ext n
  rw [Finset.mem_inter, mem_blocks, mem_blocks, mem_blocks, contains_inter, Bool.and_eq_true]
  tauto

theorem mem_blocks_below {blocks n : Nat} (le : blocks ≤ maxBlocks) :
    n ∈ (below blocks).blocks ↔ n < blocks := by
  rw [mem_blocks]
  have bit : ∀ n, n < maxBlocks → ((below blocks).contains n = true ↔ n < blocks) := by
    intro n hn
    have width : n < 64 := hn
    rw [contains, Nat.mod_eq_of_lt hn, below, ofNat, BitVec.getLsbD_ofNat,
      Nat.testBit_two_pow_sub_one]
    simp [width]
  constructor
  · rintro ⟨hn, present⟩
    exact (bit n hn).1 present
  · intro hn
    have small := Nat.lt_of_lt_of_le hn le
    exact ⟨small, (bit n small).2 hn⟩

/-- Blocks within the page are not cut off. -/
theorem blocks_inter_below {s : BlockSet} {blocks : Nat} (le : blocks ≤ maxBlocks)
    (within : ∀ n ∈ s.blocks, n < blocks) : (s.inter (below blocks)).blocks = s.blocks := by
  rw [blocks_inter]
  refine Finset.inter_eq_left.2 fun n hn => ?_
  exact (mem_blocks_below le).2 (within n hn)

theorem count_eq_card (s : BlockSet) : s.count = s.blocks.card := by
  rw [blocks, Finset.card_def, Finset.filter_val, Finset.range_val, ← Multiset.countP_eq_card_filter,
    Multiset.range, Multiset.coe_countP]
  refine List.countP_congr fun n hn => ?_
  rw [contains, Nat.mod_eq_of_lt (List.mem_range.1 hn), decide_eq_true_iff]

end BlockSet

namespace FootprintHistory

variable {h : FootprintHistory}

theorem peek_key (h : FootprintHistory) (block : Nat) :
    h.peek (h.key block) = (h.entries[block % h.entries.size]?).getD .empty := by
  rw [peek, key, Nat.mod_mod]

/-- A recorded footprint is predicted, as far as it is within the page. -/
theorem peek_record (h : FootprintHistory) (key : Nat) (footprint : BlockSet) (block : Nat)
    (positive : 0 < h.entries.size) :
    (h.record key footprint).peek ((h.record key footprint).key block) =
      if block % h.entries.size = key % h.entries.size then footprint.inter h.page
      else h.peek (h.key block) := by
  have size : (h.record key footprint).entries.size = h.entries.size := Array.size_setIfInBounds
  rw [peek_key, peek_key, size, record, Array.getElem?_setIfInBounds]
  by_cases same : block % h.entries.size = key % h.entries.size
  · rw [if_pos same, same, if_pos rfl, if_pos (Nat.mod_lt _ positive)]
    rfl
  · rw [if_neg same, if_neg (Ne.symm same)]

end FootprintHistory

end StackedCache
