/-!
# Reads and writes

The direction of a request.  It selects the column command, decides whether a block becomes dirty
and which counter moves.
-/

namespace StackedCache

/-- The direction of an access. -/
inductive Access where
  | read
  | write
  deriving DecidableEq, Repr, Inhabited

namespace Access

def isWrite : Access → Bool
  | read => false
  | write => true

/-- The word used in reports. -/
def text : Access → String
  | read => "READ"
  | write => "WRITE"

end Access

end StackedCache
