/-!
# Segments of fast memory

A segment holds the data of one of several slots that compete for it.  It counts the accesses to
every slot.  After a window of accesses the most used slot becomes the resident one, and counting
starts again.
-/

namespace StackedCache

/-- A segment of fast memory. -/
structure Segment where
  /-- Accesses in a window. -/
  window : Nat
  /-- The slot whose data the segment holds. -/
  resident : Nat := 0
  /-- Accesses in the present window. -/
  count : Nat := 0
  /-- Those accesses by slot. -/
  slots : List Nat
  deriving DecidableEq, Repr, Inhabited

/-- What an access to a segment found and did. -/
structure SegmentAccess where
  /-- The slot was the resident one. -/
  hit : Bool
  /-- Another slot became resident. -/
  swapped : Bool
  deriving DecidableEq, Repr

namespace Segment

/-- A segment with at least one slot and a window of at least one access. -/
def ofSize (slots window : Nat) : Segment where
  window := max window 1
  slots := List.replicate (max slots 1) 0

/-- The first slot with the greatest count, given the best among the slots before `slot`. -/
def busiestFrom : List Nat → Nat → Nat → Nat → Nat
  | [], _, _, best => best
  | n :: counts, slot, most, best =>
      if most < n then busiestFrom counts (slot + 1) n slot
      else busiestFrom counts (slot + 1) most best

/-- The first slot with the greatest count. -/
def busiest : List Nat → Nat
  | [] => 0
  | n :: counts => busiestFrom counts 1 n 0

def counted (s : Segment) (slot : Nat) : Segment :=
  { s with count := s.count + 1, slots := s.slots.modify slot (· + 1) }

/-- Starts a window with the given resident slot. -/
def restarted (s : Segment) (resident : Nat) : Segment :=
  { s with resident := resident, count := 0, slots := s.slots.map fun _ => 0 }

/-- Accesses a slot; slot numbers wrap around. -/
def access (s : Segment) (slot : Nat) : SegmentAccess × Segment :=
  let slot := slot % s.slots.length
  let hit := slot = s.resident
  let s := s.counted slot
  if s.count < s.window then
    (⟨hit, false⟩, s)
  else
    let winner := busiest s.slots
    (⟨hit, winner ≠ s.resident⟩, s.restarted winner)

end Segment

end StackedCache
