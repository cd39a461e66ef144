import StackedCache.Access
import StackedCache.Residency.BlockSet

/-!
# Cache lines

What a way of a cache set holds: a tag, the blocks that are present, those that are dirty and those
that were used since the fill, and the bookkeeping of replacement and prediction.  A line of a
direct-mapped set uses block 0 only.
-/

namespace StackedCache

/-- The state of a line's data. -/
inductive LineState where
  | invalid
  /-- Nothing dirty. -/
  | shared
  | modified
  deriving DecidableEq, Repr, Inhabited

/-- One way of a cache set. -/
structure Line where
  /-- The tag, if the line holds one. -/
  tag : Option Nat := none
  state : LineState := .invalid
  /-- The blocks present. -/
  valid : BlockSet := .empty
  /-- The blocks to be written back. -/
  dirty : BlockSet := .empty
  /-- The blocks accessed since the fill. -/
  footprint : BlockSet := .empty
  /-- The age or rank of the way among its siblings. -/
  usage : Nat := 0
  /-- The key of the prediction the line was filled with. -/
  trigger : Nat := 0
  deriving DecidableEq, Repr, Inhabited

namespace Line

def isValid (l : Line) : Bool := l.tag.isSome

/-- Replaces the content by the predicted blocks of a new tag; the usage stays. -/
def fill (l : Line) (tag : Nat) (predicted : BlockSet) (trigger : Nat) : Line :=
  { l with
    tag := some tag
    state := .shared
    valid := predicted
    dirty := .empty
    footprint := .empty
    trigger := trigger }

/-- The line holds a tag and the block. -/
def hasBlock (l : Line) (block : Nat) : Bool := l.isValid && l.valid.contains block

/-- Accesses a block, which is present from then on. -/
def touchBlock (l : Line) (access : Access) (block : Nat) : Line :=
  let l := { l with valid := l.valid.insert block, footprint := l.footprint.insert block }
  match access with
  | .read => l
  | .write => { l with dirty := l.dirty.insert block, state := .modified }

/-- Drops the content of a line that holds a tag; usage and trigger stay. -/
def drop (l : Line) : Line :=
  if l.isValid then
    { l with tag := none, state := .invalid, valid := .empty, dirty := .empty, footprint := .empty }
  else l

/-- The dirty blocks that go when the line is dropped. -/
def droppedDirty (l : Line) : Nat := if l.isValid then l.dirty.count else 0

end Line

end StackedCache
