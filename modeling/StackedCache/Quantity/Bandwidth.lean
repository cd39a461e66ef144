import StackedCache.Quantity.Time
import StackedCache.Decimal.Binary

/-!
# Transfer rates

A `Bandwidth` says how long a transfer occupies a link.  Rates come from outside, so every float
is allowed here; only a finite positive rate is usable, and over any other link transfers are free.
-/

namespace StackedCache

/-- A link's rate in bytes per nanosecond. -/
structure Bandwidth where
  bytesPerNs : Float

namespace Bandwidth

/-- A link of one byte per nanosecond. -/
def unit : Bandwidth := ⟨1.0⟩

instance : Inhabited Bandwidth := ⟨unit⟩

/-- The rate is finite and above zero. -/
def usable (b : Bandwidth) : Bool := b.bytesPerNs.isFinite && 0.0 < b.bytesPerNs

/-- The time `bytes` occupy the link, rounded up to whole nanoseconds.  A quotient that
overflows to infinity lasts to the end of time. -/
def transferTime (b : Bandwidth) (bytes : Nat) : Time :=
  if bytes = 0 || !b.usable then
    Time.zero
  else
    match (Decimal.Binary.ofFloat (Float.ofNat bytes / b.bytesPerNs)).ceil? with
    | some ns => Time.ofNs ns
    | none => Time.ofPs Time.limit

end Bandwidth

end StackedCache
