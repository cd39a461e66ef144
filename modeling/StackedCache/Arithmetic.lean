/-!
# Arithmetic of natural numbers

Powers and sums of natural numbers are the built-in ones, also where algebraic structures are around
that have powers and a zero of their own.
-/

namespace StackedCache

attribute [instance (high), default_instance high+1] instPowNat

instance (priority := high) natZero : Zero Nat := ⟨0⟩

end StackedCache
