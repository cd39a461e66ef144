import StackedCache.Proofs.Step
import StackedCache.Residency.CacheSet

/-!
# Cache sets that differ in what they have counted

Two cache sets are twins if they are the same but for their counts of reads and writes.  They find
the same, choose the same victims and displace the same blocks, and they stay twins.
-/

namespace StackedCache.CacheSet

variable {s s' : CacheSet}

/-- The sets differ in their counts only. -/
def Twin (s s' : CacheSet) : Prop := s.resetCounts = s'.resetCounts

namespace Twin

theorem exists_counts (h : s.Twin s') :
    ∃ reads writes, s' = { s with reads := reads, writes := writes } := by
  refine ⟨s'.reads, s'.writes, ?_⟩
  have restored : ∀ s : CacheSet,
      s = { s.resetCounts with reads := s.reads, writes := s.writes } := fun _ => rfl
  rw [restored s', ← h]
  rfl

theorem placement (h : s.Twin s') : s'.placement = s.placement := by
  rcases h.exists_counts with ⟨reads, writes, rfl⟩
  rfl

/-- The sets hold the same blocks. -/
theorem blocks (h : s.Twin s') :
    s'.validBlocks = s.validBlocks ∧ s'.droppedDirty = s.droppedDirty := by
  rcases h.exists_counts with ⟨reads, writes, rfl⟩
  exact ⟨rfl, rfl⟩

theorem drop (h : s.Twin s') : s.drop.Twin s'.drop := by
  rcases h.exists_counts with ⟨reads, writes, rfl⟩
  rfl

theorem chooseVictim (h : s.Twin s') :
    ∃ way after after', s.chooseVictim = (way, after) ∧ s'.chooseVictim = (way, after') ∧
      after.Twin after' := by
  rcases h.exists_counts with ⟨reads, writes, rfl⟩
  exact ⟨_, _, _, rfl, rfl, rfl⟩

/-- A lookup finds the same in both sets. -/
theorem access (h : s.Twin s') (access : Access) (tag block : Nat) :
    ∃ found after after', s.access access tag block = (found, after) ∧
      s'.access access tag block = (found, after') ∧ after.Twin after' := by
  rcases h.exists_counts with ⟨reads, writes, rfl⟩
  have found : ∀ reads writes,
      find? { s with reads := reads, writes := writes } tag = s.find? tag :=
    fun _ _ => rfl
  unfold CacheSet.access
  simp only [found]
  cases s.find? tag with
  | none => exact ⟨_, _, _, rfl, rfl, rfl⟩
  | some way =>
      have asked : ∀ reads writes,
          blockOf { s with reads := reads, writes := writes } block = s.blockOf block :=
        fun _ _ => rfl
      simp only [asked]
      split
      · exact ⟨_, _, _, rfl, rfl, rfl⟩
      · exact ⟨_, _, _, rfl, rfl, rfl⟩

theorem touchTag (h : s.Twin s') (tag : Nat) :
    SameOutcome Twin (s.touchTag tag) (s'.touchTag tag) := by
  rcases h.exists_counts with ⟨reads, writes, rfl⟩
  have found : find? { s with reads := reads, writes := writes } tag = s.find? tag := rfl
  rw [touchTag_eq, touchTag_eq, found]
  cases s.find? tag with
  | none => exact .error _
  | some way => exact .ok rfl

/-- A fill displaces the same blocks of both sets. -/
theorem fill (h : s.Twin s') (way tag : Nat) (predicted : BlockSet) (trigger : Nat) :
    SameOutcome (fun r r' => r.1 = r'.1 ∧ r.2.Twin r'.2) (s.fill way tag predicted trigger)
      (s'.fill way tag predicted trigger) := by
  rcases h.exists_counts with ⟨reads, writes, rfl⟩
  have lines : lines { s with reads := reads, writes := writes } = s.lines := rfl
  have elsewhere : heldElsewhere { s with reads := reads, writes := writes } way tag =
      s.heldElsewhere way tag := rfl
  rw [fill_eq, fill_eq, lines, elsewhere]
  cases s.lines[way]? with
  | none => exact .error _
  | some old =>
      dsimp only
      split
      · exact .error _
      · split
        · exact .error _
        · -- The filled sets are twins as well, and only their tags are touched from here on.
          generalize hfilled : s.replaceLine way tag predicted trigger = filled
          generalize hfilled' : replaceLine { s with reads := reads, writes := writes } way tag
            predicted trigger = filled'
          have twin : filled.Twin filled' := by
            rw [← hfilled, ← hfilled']
            rfl
          have touched := twin.touchTag tag
          generalize filled.touchTag tag = r, filled'.touchTag tag = r' at touched ⊢
          cases touched with
          | ok result => exact .ok ⟨rfl, result⟩
          | error cause => exact .error cause

theorem markBlock (h : s.Twin s') (way : Nat) (access : Access) (block : Nat) :
    SameOutcome Twin (s.markBlock way access block) (s'.markBlock way access block) := by
  rcases h.exists_counts with ⟨reads, writes, rfl⟩
  have asked : blockOf { s with reads := reads, writes := writes } block = s.blockOf block := rfl
  have ways : ways { s with reads := reads, writes := writes } = s.ways := rfl
  unfold CacheSet.markBlock
  rw [asked, ways]
  dsimp only
  split
  · exact .error _
  · split
    · exact .error _
    · exact .ok rfl

end Twin

end StackedCache.CacheSet
