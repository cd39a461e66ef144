import StackedCache.Service.Controller

/-!
# The three designs

How each design serves a request once its place is known.  All transfers of a request happen one
after the other.
-/

namespace StackedCache.Service

/-- Bytes read to fetch the tags of a set. -/
def tagBytes : Nat := 64

/-! ## Blocks with their tags -/

/-- Replaces the block of a direct-mapped set and returns the dirty blocks it displaces. -/
def replaceBlock (access : Access) (split : SplitAddress) (set : CacheSet) : Serving Nat := do
  let (way, set) := set.chooseVictim
  storeSet split.set set
  let (evicted, set) ← attempt .cache (set.fill way split.tag .empty 0)
  storeSet split.set set
  let set ← attempt .cache (set.markBlock way access 0)
  storeSet split.set set
  return evicted.dirtyBlocks

/-- Reads the tag; after a miss loads the block; then transfers the data. -/
def serveBlock (arrival : Time) (size : Nat) (split : SplitAddress) (access : Access) :
    Serving Unit := do
  let row := (← setAt split.set).placement
  transfer arrival .read tagBytes row
  let (found, set) := (← setAt split.set).access access split.tag 0
  storeSet split.set set
  if found = .miss then
    let dirty ← replaceBlock access split set
    count fun n =>
      { n with
        misses := n.misses + 1
        pageMisses := n.pageMisses + 1
        loadedBlocks := n.loadedBlocks + 1
        writebackBlocks := n.writebackBlocks + dirty }
    let block := (← theController).blockSize
    transfer arrival .write block row
    load block
    stream (dirty * block)
  transfer arrival access size row

/-! ## Pages with predicted footprints -/

/-- The key and prediction for a page filled because of a block. -/
def predict (block : Nat) : Serving (Nat × BlockSet) := do
  match (← theController).organisation with
  | .pages history =>
      let key := history.key block
      let (prediction, history) := history.predict key
      modifyController fun c => { c with organisation := .pages history }
      return (key, prediction)
  | _ => return (0, .empty)

/-- Records what an evicted page has used; an empty way teaches nothing. -/
def learn (evicted : Eviction) : Serving Unit := do
  match (← theController).organisation with
  | .pages history =>
      if evicted.tag.isSome then
        modifyController fun c =>
          { c with organisation := .pages (history.record evicted.trigger evicted.footprint) }
  | _ => return

/-- Replaces a page and returns the blocks loaded and the dirty blocks displaced. -/
def replacePage (access : Access) (split : SplitAddress) (block : Nat) : Serving (Nat × Nat) := do
  let (key, prediction) ← predict block
  let (way, set) := (← setAt split.set).chooseVictim
  storeSet split.set set
  let (evicted, set) ← attempt .cache (set.fill way split.tag prediction key)
  storeSet split.set set
  let set ← attempt .cache (set.markBlock way access block)
  storeSet split.set set
  learn evicted
  return ((prediction.insert block).count, evicted.dirtyBlocks)

/-- Reads the tags; loads the block or the page that is missing; a hit transfers the block. -/
def servePage (arrival : Time) (split : SplitAddress) (access : Access) : Serving Unit := do
  let size := (← theController).blockSize
  let block := split.offset / size
  let row := (← setAt split.set).placement
  transfer arrival .read tagBytes row
  let (found, set) := (← setAt split.set).access access split.tag block
  storeSet split.set set
  match found with
  | .hit => transfer arrival access size row
  | .blockMiss =>
      count fun n =>
        { n with
          misses := n.misses + 1
          blockMisses := n.blockMisses + 1
          loadedBlocks := n.loadedBlocks + 1 }
      load size
      transfer arrival .write size row
  | .miss =>
      let (blocks, dirty) ← replacePage access split block
      count fun n =>
        { n with
          misses := n.misses + 1
          pageMisses := n.pageMisses + 1
          loadedBlocks := n.loadedBlocks + blocks
          writebackBlocks := n.writebackBlocks + dirty }
      load (blocks * size)
      stream (dirty * size)
      transfer arrival .write (blocks * size) row

/-! ## Segments -/

/-- Accesses a slot of a segment.  A segment that does not exist has no hits. -/
def accessSegment (index slot : Nat) : Serving SegmentAccess := do
  match (← theController).organisation with
  | .segments segments =>
      match segments[index]? with
      | some segment =>
          let (found, segment) := segment.access slot
          modifyController fun c =>
            { c with organisation := .segments (segments.setIfInBounds index segment) }
          return found
      | none => return ⟨false, false⟩
  | _ => return ⟨false, false⟩

/-- Copies rows of a segment, from `row` on: each one is read and written. -/
def copyRows (arrival : Time) (base rowSize : Nat) : Nat → Nat → Serving Unit
  | 0, _ => return
  | n + 1, row => do
      let place := (← theController).stack.locate (base + row * rowSize)
      transfer arrival .read rowSize place
      transfer arrival .write rowSize place
      copyRows arrival base rowSize n (row + 1)

/-- Brings the data of a new resident slot into a segment. -/
def swapSegment (arrival : Time) (index : Nat) : Serving Unit := do
  let c ← theController
  count fun n => { n with segmentSwaps := n.segmentSwaps + 1 }
  let rowSize := c.stack.rowSize
  copyRows arrival (index * c.segmentSize) rowSize (max (c.segmentSize / rowSize) 1) 0
  stream c.segmentSize

/-- Counts the access to the segment, moves its data if a window has ended, and transfers the
data. -/
def serveSegment (arrival : Time) (size addr : Nat) (access : Access) : Serving Unit := do
  let c ← theController
  match c.organisation with
  | .segments segments =>
      let number := addr / 2 ^ fieldBits c.segmentSize
      let entries := max segments.size 1
      let index := number % entries
      let found ← accessSegment index (number / entries % c.slots)
      if found.swapped then swapSegment arrival index
      if found.hit then
        count fun n => { n with segmentHits := n.segmentHits + 1 }
      else
        count fun n => { n with misses := n.misses + 1 }
        stream size
      transfer arrival access size ((← theController).stack.locate addr)
  | _ => return

end StackedCache.Service
