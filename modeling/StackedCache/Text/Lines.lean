/-!
# Lines

A line ends with a line feed or with the end of the text; what follows the last line feed is a line
only if it is not empty.  A carriage return in front of a line feed belongs to the line end.
-/

namespace StackedCache.Text

/-- Cuts a sequence after every `stop`.  The stops are dropped, and each piece says whether it was
ended by one. -/
def pieces {α : Type} [BEq α] (stop : α) : List α → List (List α × Bool)
  | [] => []
  | c :: s =>
      if c == stop then ([], true) :: pieces stop s
      else
        match pieces stop s with
        | [] => [([c], false)]
        | (piece, ended) :: rest => (c :: piece, ended) :: rest

/-- A piece as a line: without the carriage return of its line end. -/
def lineOf {α : Type} [BEq α] (return_ : α) (piece : List α × Bool) : List α :=
  match piece with
  | (s, true) => if s.getLast? == some return_ then s.dropLast else s
  | (s, false) => s

def lines (s : List Char) : List (List Char) := (pieces '\n' s).map (lineOf '\r')

def byteLines (s : List UInt8) : List (List UInt8) := (pieces 10 s).map (lineOf 13)

end StackedCache.Text
