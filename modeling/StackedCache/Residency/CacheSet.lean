import StackedCache.Fault
import StackedCache.Placement
import StackedCache.Residency.Ranking

/-!
# Cache sets

A set has a number of ways and a place in the stack.  Sets of pages track the blocks of a page, so
that a lookup can find the page without the block; direct-mapped sets hold one block.

Operations that a set refuses leave it as it was.
-/

namespace StackedCache

/-- The organisation of a set. -/
inductive SetKind where
  /-- One way with one block. -/
  | directBlock
  /-- Ways with pages. -/
  | page
  /-- Ways with pages, always ranked by recency. -/
  | pageLru
  deriving DecidableEq, Repr, Inhabited

namespace SetKind

/-- Lines of the set consist of blocks. -/
def tracksBlocks (k : SetKind) : Bool := k ≠ .directBlock

def ways (k : SetKind) (wanted : Nat) : Nat := if k.tracksBlocks then max wanted 1 else 1

def ranking (k : SetKind) (ageing : Ageing) : Ranking :=
  match k with
  | directBlock => .direct
  | page => .ageing ageing
  | pageLru => .ageing .lru

end SetKind

/-- What a lookup found. -/
inductive Lookup where
  | miss
  /-- The page, but not the block. -/
  | blockMiss
  | hit
  deriving DecidableEq, Repr, Inhabited

/-- What a fill displaced. -/
structure Eviction where
  /-- The displaced tag, if the way held one. -/
  tag : Option Nat
  footprint : BlockSet
  trigger : Nat
  dirtyBlocks : Nat
  validBlocks : Nat
  deriving DecidableEq, Repr

/-- The content of a way, as it is displaced. -/
def Line.evicted (l : Line) : Eviction where
  tag := l.tag
  footprint := l.footprint
  trigger := l.trigger
  dirtyBlocks := l.dirty.count
  validBlocks := l.valid.count

/-- A cache set. -/
structure CacheSet where
  kind : SetKind
  lines : List Line
  ranking : Ranking
  /-- Where the set is stored, before any relocation. -/
  placement : Location
  /-- Lookups and choices of a victim. -/
  reads : Nat := 0
  /-- Fills and reloads of a block. -/
  writes : Nat := 0
  deriving Inhabited

/-- A step on a set that may be refused.  What it did before that stays done. -/
abbrev SetStep := EStateM CacheFault CacheSet

/-- The number that stands for no tag, and so is none. -/
def noTag : Nat := 2 ^ 64 - 1

namespace CacheSet

def ofKind (kind : SetKind) (ways : Nat) (ageing : Ageing) (placement : Location) : CacheSet where
  kind := kind
  lines := List.replicate (kind.ways ways) {}
  ranking := kind.ranking ageing
  placement := placement

def ways (s : CacheSet) : Nat := s.lines.length

/-- The way that holds a tag. -/
def find? (s : CacheSet) (tag : Nat) : Option Nat := s.lines.findIdx? fun l => l.tag == some tag

/-- The block a line is asked for; a line that does not track blocks has but one. -/
def blockOf (s : CacheSet) (block : Nat) : Nat := if s.kind.tracksBlocks then block else 0

/-- Ages the ways after an access to one of them. -/
def touchWay (s : CacheSet) (way : Nat) : CacheSet := { s with lines := s.ranking.touch s.lines way }

def modifyLine (s : CacheSet) (way : Nat) (f : Line → Line) : CacheSet :=
  { s with lines := s.lines.modify way f }

/-- Looks a block up and records the access.  A block that is missing from its page is present
afterwards. -/
def access (s : CacheSet) (access : Access) (tag block : Nat) : Lookup × CacheSet :=
  let s := { s with reads := s.reads + 1 }
  match s.find? tag with
  | none => (.miss, s)
  | some way =>
      let block := s.blockOf block
      let present := (s.lines[way]?.map fun l => l.valid.contains block).getD false
      let touched := (s.touchWay way).modifyLine way (·.touchBlock access block)
      if present then (.hit, touched)
      else (.blockMiss, { touched with writes := touched.writes + 1 })

/-- Chooses the way to fill next. -/
def chooseVictim (s : CacheSet) : Nat × CacheSet :=
  (min (s.ranking.victim s.lines) (s.ways - 1), { s with reads := s.reads + 1 })

/-- A way other than `way` holds the tag. -/
def heldElsewhere (s : CacheSet) (way tag : Nat) : Bool :=
  (s.lines.zipIdx).any fun (l, i) => i ≠ way && l.tag == some tag

/-- Ages the ways after an access to the one that holds the tag. -/
def touchHolder (tag : Nat) : SetStep Unit := do
  let s ← get
  match s.find? tag with
  | some way => set (s.touchWay way)
  | none => throw (.lookupMiss tag)

/-- The set once a way has been given new content, and before it is touched. -/
def replaceLine (s : CacheSet) (way tag : Nat) (predicted : BlockSet) (trigger : Nat) : CacheSet :=
  let predicted := if s.kind.tracksBlocks then predicted else .empty
  let filled := s.modifyLine way (·.fill tag predicted trigger)
  { filled with writes := filled.writes + 1 }

/-- Replaces the content of a way and touches it as the holder of its new tag. -/
def fillWay (way tag : Nat) (predicted : BlockSet) (trigger : Nat) : SetStep Eviction := do
  let s ← get
  match s.lines[way]? with
  | none => throw (.indexOutOfRange way s.ways)
  | some old =>
      if tag = noTag then throw (.lookupMiss tag)
      else if s.heldElsewhere way tag then throw (.duplicateTag tag)
      else
        modify (·.replaceLine way tag predicted trigger)
        touchHolder tag
        return old.evicted

/-- The outcome of a step: its result and the set it leads to, or why it was refused. -/
def outcome {α : Type} (step : SetStep α) (s : CacheSet) : Except CacheFault (α × CacheSet) :=
  match step s with
  | .ok a s' => .ok (a, s')
  | .error cause _ => .error cause

def touchTag (s : CacheSet) (tag : Nat) : Except CacheFault CacheSet :=
  (outcome (touchHolder tag) s).map Prod.snd

def fill (s : CacheSet) (way tag : Nat) (predicted : BlockSet) (trigger : Nat) :
    Except CacheFault (Eviction × CacheSet) :=
  outcome (fillWay way tag predicted trigger) s

theorem touchHolder_apply (s : CacheSet) (tag : Nat) :
    touchHolder tag s =
      match s.find? tag with
      | some way => .ok () (s.touchWay way)
      | none => .error (.lookupMiss tag) s := by
  have step : touchHolder tag s =
      (match s.find? tag with
        | some way => set (s.touchWay way)
        | none => throw (.lookupMiss tag) : SetStep Unit) s := rfl
  rw [step]
  cases s.find? tag <;> rfl

theorem touchTag_eq (s : CacheSet) (tag : Nat) :
    s.touchTag tag =
      match s.find? tag with
      | some way => .ok (s.touchWay way)
      | none => .error (.lookupMiss tag) := by
  simp only [touchTag, outcome, touchHolder_apply]
  cases s.find? tag <;> rfl

/-- All checks but the last one come before the change. -/
theorem fillWay_apply (s : CacheSet) (way tag : Nat) (predicted : BlockSet) (trigger : Nat) :
    fillWay way tag predicted trigger s =
      match s.lines[way]? with
      | none => .error (.indexOutOfRange way s.ways) s
      | some old =>
          if tag = noTag then .error (.lookupMiss tag) s
          else if s.heldElsewhere way tag then .error (.duplicateTag tag) s
          else
            let replaced := s.replaceLine way tag predicted trigger
            match replaced.find? tag with
            | some holder => .ok old.evicted (replaced.touchWay holder)
            | none => .error (.lookupMiss tag) replaced := by
  have step : fillWay way tag predicted trigger s =
      (match s.lines[way]? with
        | none => throw (.indexOutOfRange way s.ways)
        | some old =>
            if tag = noTag then throw (.lookupMiss tag)
            else if s.heldElsewhere way tag then throw (.duplicateTag tag)
            else do
              modify (·.replaceLine way tag predicted trigger)
              touchHolder tag
              return old.evicted : SetStep Eviction) s := rfl
  rw [step]
  cases s.lines[way]? with
  | none => rfl
  | some old =>
      by_cases htag : tag = noTag
      · simp only [htag, if_true]
        rfl
      · cases held : s.heldElsewhere way tag with
        | true =>
            simp only [htag, if_true, if_false]
            rfl
        | false =>
            simp only [htag, Bool.false_eq_true, if_false]
            -- What is left is the change, and the touch of what it has made.
            have changed : (do
                modify (·.replaceLine way tag predicted trigger)
                touchHolder tag
                return old.evicted : SetStep Eviction) s =
                (do
                  touchHolder tag
                  return old.evicted : SetStep Eviction)
                    (s.replaceLine way tag predicted trigger) := rfl
            rw [changed]
            simp only [bind, EStateM.bind, touchHolder_apply]
            cases (s.replaceLine way tag predicted trigger).find? tag <;> rfl

theorem fill_eq (s : CacheSet) (way tag : Nat) (predicted : BlockSet) (trigger : Nat) :
    s.fill way tag predicted trigger =
      match s.lines[way]? with
      | none => .error (.indexOutOfRange way s.ways)
      | some old =>
          if tag = noTag then .error (.lookupMiss tag)
          else if s.heldElsewhere way tag then .error (.duplicateTag tag)
          else
            ((s.replaceLine way tag predicted trigger).touchTag tag).map fun s => (old.evicted, s) := by
  simp only [fill, outcome, fillWay_apply, touchTag_eq]
  cases s.lines[way]? with
  | none => rfl
  | some old =>
      by_cases htag : tag = noTag
      · simp only [htag, if_true]
      · cases held : s.heldElsewhere way tag with
        | true => simp only [htag, if_true, if_false]
        | false =>
            simp only [htag, Bool.false_eq_true, if_false]
            cases (s.replaceLine way tag predicted trigger).find? tag <;> rfl

/-- Records the access to a block of a way that was just filled. -/
def markBlock (s : CacheSet) (way : Nat) (access : Access) (block : Nat) :
    Except CacheFault CacheSet :=
  let block := s.blockOf block
  if maxBlocks ≤ block then .error (.blockOutOfRange block maxBlocks)
  else if s.ways ≤ way then .error (.indexOutOfRange way s.ways)
  else .ok (s.modifyLine way (·.touchBlock access block))

/-- Drops the content of a way and counts the blocks to write back. -/
def dropWay (s : CacheSet) (way : Nat) : Except CacheFault (Nat × CacheSet) :=
  match s.lines[way]? with
  | none => .error (.indexOutOfRange way s.ways)
  | some l => .ok (l.droppedDirty, s.modifyLine way Line.drop)

/-- Drops all content. -/
def drop (s : CacheSet) : CacheSet := { s with lines := s.lines.map Line.drop }

/-- The dirty blocks that go when all content is dropped. -/
def droppedDirty (s : CacheSet) : Nat := (s.lines.map Line.droppedDirty).sum

/-- Dirty blocks of all ways. -/
def dirtyBlocks (s : CacheSet) : Nat := (s.lines.map fun l => l.dirty.count).sum

/-- Blocks present in ways that hold a tag. -/
def validBlocks (s : CacheSet) : Nat :=
  ((s.lines.filter Line.isValid).map fun l => l.valid.count).sum

def resetCounts (s : CacheSet) : CacheSet := { s with reads := 0, writes := 0 }

end CacheSet

end StackedCache
