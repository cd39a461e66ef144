import StackedCache.Access
import StackedCache.Trace.Field

/-!
# Request traces

A line of a request trace has a time in nanoseconds, the direction of the access, an address and,
if it is not the usual one, a size.
-/

namespace StackedCache

/-- A request as a trace has it. -/
structure TraceRequest where
  timeNs : Nat
  access : Access
  addr : Nat
  size : Nat
  deriving DecidableEq, Repr

/-- The direction a word stands for, in upper or lower case. -/
def Access.ofWord? (word : List Char) : Option Access :=
  match String.ofList (word.map Char.toUpper) with
  | "R" | "READ" => some .read
  | "W" | "WRITE" => some .write
  | _ => none

namespace TraceRequest

/-- Bytes of a request that does not say. -/
def usualSize : Nat := 64

def ofWords (line : Nat) (words : List (List Char)) : Except TraceFault TraceRequest := do
  let (timeNs, words) ← Trace.readField line .time Text.wordNumeral? words
  let (access, words) ← Trace.readField line .accessType Access.ofWord? words
  let (addr, words) ← Trace.readField line .address Text.wordNumeral? words
  let (size, _) ← Trace.readOptional line .size Text.wordNumeral? usualSize words
  return ⟨timeNs, access, addr, size⟩

/-- The request on a line, unless the line is blank or a comment. -/
def ofLine (line : Nat) (text : List Char) : Except TraceFault (Option TraceRequest) :=
  Trace.readLine line ofWords text

end TraceRequest

end StackedCache
