import StackedCache.Quantity.Celsius

/-!
# Temperatures and accesses

The `Ledger` keeps, for each physical bank, the last temperature reading and how many DRAM requests
it served while hot, while cool, and for logical banks that are at home elsewhere.
-/

namespace StackedCache

/-- Temperatures and request counts by physical bank. -/
structure Ledger where
  banksPerVault : Nat
  temperatures : Array Celsius
  hot : Array Nat
  cool : Array Nat
  relocated : Array Nat
  deriving Inhabited

namespace Ledger

/-- A ledger with all banks at the same temperature. -/
def ofSize (vaults banksPerVault : Nat) (initial : Celsius) : Ledger :=
  let banks := vaults * banksPerVault
  { banksPerVault := banksPerVault
    temperatures := Array.replicate banks initial
    hot := Array.replicate banks 0
    cool := Array.replicate banks 0
    relocated := Array.replicate banks 0 }

def temperature (l : Ledger) (id : Nat) : Celsius := (l.temperatures[id]?).getD .none

/-- Stores a reading; those of other banks than the stack's are ignored. -/
def setTemperature (l : Ledger) (id : Nat) (t : Celsius) : Ledger :=
  { l with temperatures := l.temperatures.setIfInBounds id t }

def vaultTemperature (l : Ledger) (vault : Nat) : Celsius :=
  let first := vault * l.banksPerVault
  if first + l.banksPerVault ≤ l.temperatures.size then
    .mean ((l.temperatures.toList.drop first).take l.banksPerVault)
  else
    .none

def addTo (counts : Array Nat) (id n : Nat) : Array Nat := counts.modify id (· + n)

/-- Classifies requests served by a bank. -/
def recordAccess (l : Ledger) (id requests : Nat) (hot relocated : Bool) : Ledger :=
  let l :=
    if hot then { l with hot := addTo l.hot id requests }
    else { l with cool := addTo l.cool id requests }
  if relocated then { l with relocated := addTo l.relocated id requests } else l

/-- Forgets the counts and keeps the temperatures. -/
def resetCounts (l : Ledger) : Ledger :=
  { l with
    hot := l.hot.map fun _ => 0
    cool := l.cool.map fun _ => 0
    relocated := l.relocated.map fun _ => 0 }

end Ledger

end StackedCache
