import StackedCache.Table

/-!
# Renumbering pages

A `PageTable` gives pages frame numbers in the order of their first use, so that scattered addresses
fill the lower end of the address space.
-/

namespace StackedCache

/-- Bytes of a page that is renumbered. -/
def frameSize : Nat := 4096

/-- The pages seen so far with their frame numbers. -/
structure PageTable where
  pages : Table Nat := []
  deriving DecidableEq, Repr, Inhabited

namespace PageTable

/-- The frame of a page, and the table after a new page has got the next frame, which is the number of
pages before it. -/
def frameOf (t : PageTable) (page : Nat) : Nat × PageTable :=
  match t.pages.find? page with
  | some frame => (frame, t)
  | none => (t.pages.size, { pages := t.pages.insert page t.pages.size })

def renumber (t : PageTable) (addr : Nat) : Nat × PageTable :=
  let (frame, t) := t.frameOf (addr / frameSize)
  (frame * frameSize + addr % frameSize, t)

end PageTable

end StackedCache
