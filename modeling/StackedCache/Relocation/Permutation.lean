/-!
# Permutations of an index range

A `Permutation` sends each index below its size to another one, its target.  It keeps the targets and,
in a second array, the sources, so that both directions are one step.

The two arrays may come from anywhere; `consistent` checks that they agree.  Exchanging two targets,
`swap?`, changes both arrays together and keeps them in agreement.
-/

namespace StackedCache

/-- Targets and sources of an index range. -/
structure Permutation where
  targets : Array Nat
  sources : Array Nat
  deriving DecidableEq, Repr, Inhabited

namespace Permutation

/-- Every index below `n` is its own target. -/
def identity (n : Nat) : Permutation := ⟨Array.range n, Array.range n⟩

def size (p : Permutation) : Nat := p.targets.size

def target? (p : Permutation) (i : Nat) : Option Nat := p.targets[i]?

def source? (p : Permutation) (j : Nat) : Option Nat := p.sources[j]?

/-- The index is its own target. -/
def fixes (p : Permutation) (i : Nat) : Bool := p.target? i == some i

/-- The indices that are not their own target. -/
def moved (p : Permutation) : List Nat := (List.range p.size).filter fun i => !p.fixes i

def isIdentity (p : Permutation) : Bool := p.moved.isEmpty

/-- Exchanges the targets of two indices, if both are in range. -/
def swap? (p : Permutation) (a b : Nat) : Option Permutation :=
  match p.target? a, p.target? b with
  | some x, some y =>
      some
        { targets := (p.targets.setIfInBounds a y).setIfInBounds b x
          sources := (p.sources.setIfInBounds y a).setIfInBounds x b }
  | _, _ => none

/-- Makes an index its own target again, if it is not.  Its old target goes to the index that had
taken its place, which is returned as well. -/
def sendHome? (p : Permutation) (i : Nat) : Option (Nat × Permutation) :=
  if p.fixes i then none
  else
    match p.source? i with
    | none => none
    | some occupant => (p.swap? i occupant).map fun q => (occupant, q)

/-- The source of every target is the index it belongs to. -/
def consistent (p : Permutation) : Bool :=
  p.targets.size = p.sources.size &&
    (List.range p.size).all fun i =>
      match p.target? i with
      | some j => p.source? j == some i
      | none => false

/-! ## Laws of exchanges -/

/-- An exchange exchanges the targets of two indices and leaves all others alone. -/
theorem target?_swap? {p q : Permutation} {a b : Nat} (h : p.swap? a b = some q) (i : Nat) :
    q.target? i = if i = b then p.target? a else if i = a then p.target? b else p.target? i := by
  unfold swap? target? at h
  split at h
  · rename_i x y hx hy
    cases h
    have ha := (Array.getElem?_eq_some_iff.1 hx).1
    have hb := (Array.getElem?_eq_some_iff.1 hy).1
    simp only [target?, Array.getElem?_setIfInBounds, Array.size_setIfInBounds, hx, hy, ha, hb,
      if_true, eq_comm (a := i)]
  · cases h

theorem size_swap? {p q : Permutation} {a b : Nat} (h : p.swap? a b = some q) :
    q.size = p.size := by
  unfold swap? at h
  split at h
  · cases h
    simp [size]
  · cases h

end Permutation

end StackedCache
