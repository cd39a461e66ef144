import StackedCache.Arithmetic

/-!
# Sets of blocks

The blocks of a line are numbered from 0 to 63, and a `BlockSet` keeps one bit for each.  Block
numbers beyond the last one wrap around.
-/

namespace StackedCache

/-- The most blocks of a line. -/
def maxBlocks : Nat := 64

/-- A set of blocks of one line. -/
structure BlockSet where
  mask : BitVec 64
  deriving DecidableEq, Repr, Inhabited

namespace BlockSet

def empty : BlockSet := ⟨0⟩

/-- The set with the given bit mask. -/
def ofNat (mask : Nat) : BlockSet := ⟨.ofNat 64 mask⟩

/-- The bit mask of the set. -/
def toNat (s : BlockSet) : Nat := s.mask.toNat

def below (n : Nat) : BlockSet := .ofNat (2 ^ n - 1)

def single (block : Nat) : BlockSet := ⟨.twoPow 64 (block % maxBlocks)⟩

def contains (s : BlockSet) (block : Nat) : Bool := s.mask.getLsbD (block % maxBlocks)

def union (s t : BlockSet) : BlockSet := ⟨s.mask ||| t.mask⟩

def inter (s t : BlockSet) : BlockSet := ⟨s.mask &&& t.mask⟩

def insert (s : BlockSet) (block : Nat) : BlockSet := s.union (single block)

def count (s : BlockSet) : Nat := (List.range maxBlocks).countP s.mask.getLsbD

theorem contains_empty (block : Nat) : empty.contains block = false := by
  simp [empty, contains]

theorem contains_single (a b : Nat) : (single a).contains b = decide (a % maxBlocks = b % maxBlocks) := by
  have bound : a % maxBlocks < 64 := Nat.mod_lt _ (by decide)
  simp [single, contains, BitVec.getLsbD_twoPow, bound]

theorem contains_union (s t : BlockSet) (block : Nat) :
    (s.union t).contains block = (s.contains block || t.contains block) := by
  simp [union, contains]

theorem contains_inter (s t : BlockSet) (block : Nat) :
    (s.inter t).contains block = (s.contains block && t.contains block) := by
  simp [inter, contains]

theorem contains_insert (s : BlockSet) (a b : Nat) :
    (s.insert a).contains b = (s.contains b || decide (a % maxBlocks = b % maxBlocks)) := by
  rw [insert, contains_union, contains_single]

/-! ## Counting -/

theorem count_empty : empty.count = 0 := by decide

def countBeyond (s t : BlockSet) : Nat :=
  (List.range maxBlocks).countP fun i => s.mask.getLsbD i && !t.mask.getLsbD i

theorem countBeyond_self (s : BlockSet) : s.countBeyond s = 0 := by
  simp [countBeyond]

theorem getLsbD_insert (s : BlockSet) (block : Nat) {i : Nat} (hi : i < maxBlocks) :
    (s.insert block).mask.getLsbD i =
      (s.mask.getLsbD i || decide (i = block % maxBlocks)) := by
  have hi : i < 64 := hi
  simp [insert, union, single, hi]

/-- One more index satisfies a predicate that is widened by it. -/
theorem countP_range_or (p : Nat → Bool) (k n : Nat) :
    (List.range n).countP (fun i => p i || decide (i = k)) =
      (List.range n).countP p + if k < n ∧ p k = false then 1 else 0 := by
  induction n with
  | zero => simp
  | succ n ih =>
      rw [List.range_succ, List.countP_append, List.countP_append, ih]
      simp only [List.countP_singleton]
      by_cases hk : n = k
      · subst hk
        cases p n <;> simp
      · have hlt : k < n + 1 ↔ k < n := by omega
        cases p n <;> simp [hk, hlt, Nat.add_right_comm]

/-- Inserting a block adds one to the count if it is new. -/
theorem count_insert (s : BlockSet) (block : Nat) :
    (s.insert block).count = s.count + if s.contains block then 0 else 1 := by
  have bound : block % maxBlocks < maxBlocks := Nat.mod_lt _ (by decide)
  have widened : (s.insert block).count = (List.range maxBlocks).countP fun i =>
      s.mask.getLsbD i || decide (i = block % maxBlocks) := by
    refine List.countP_congr fun i hi => ?_
    rw [getLsbD_insert s block (List.mem_range.1 hi)]
  rw [widened, countP_range_or]
  cases hc : s.mask.getLsbD (block % maxBlocks) <;> simp [count, contains, bound, hc]

theorem countBeyond_insert (s : BlockSet) (block : Nat) :
    (s.insert block).countBeyond s + s.count = (s.insert block).count := by
  have bound : block % maxBlocks < maxBlocks := Nat.mod_lt _ (by decide)
  have split : ∀ (p q : Nat → Bool) (xs : List Nat), (∀ i, q i = true → p i = true) →
      xs.countP (fun i => p i && !q i) + xs.countP q = xs.countP p := by
    intro p q xs hqp
    induction xs with
    | nil => rfl
    | cons i xs ih =>
        have hi := hqp i
        simp only [List.countP_cons]
        cases hq : q i <;> cases hp : p i <;> simp_all <;> omega
  exact split _ _ _ fun i hi => by simp [insert, union, hi]

end BlockSet

end StackedCache
