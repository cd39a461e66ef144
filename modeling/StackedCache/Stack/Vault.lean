import StackedCache.Stack.Bank

/-!
# Vaults

A vault is a column of banks behind one controller.  Requests name a bank of the vault and a row of
the bank.
-/

namespace StackedCache

/-- A vault of the stack. -/
structure Vault where
  id : Nat
  banks : Array Bank
  /-- Rows are closed after each request. -/
  autoPrecharge : Bool
  /-- Requests served. -/
  requests : Nat := 0
  deriving Inhabited

/-- The activity of a vault and of its banks. -/
structure VaultActivity where
  vault : Nat
  requests : Nat
  total : Activity
  banks : List Activity
  deriving DecidableEq, Repr, Inhabited

/-- A step of a vault.  When it fails, what it did before stays done. -/
abbrev VaultStep := EStateM TimingFault Vault

namespace Vault

/-- A vault with all banks closed. -/
def ofSizes (id vaultSize bankSize rowSize : Nat) (autoPrecharge : Bool) (speed : Speed) : Vault where
  id := id
  banks := Array.replicate (vaultSize / bankSize) (Bank.ofSize bankSize rowSize speed)
  autoPrecharge := autoPrecharge

/-- Banks that can be addressed. -/
def bankCount (v : Vault) : Nat := narrow v.banks.size

/-- The vault with another bank in place of the given one. -/
def withBank (v : Vault) (bank : Nat) (b : Bank) : Vault :=
  { v with banks := v.banks.setIfInBounds bank b }

def onBank {α : Type} (bank : Nat) (step : BankStep α) : VaultStep α := fun v =>
  match v.banks[bank]? with
  | none => .error (.bankOutOfRange bank v.bankCount) v
  | some b =>
      match step b with
      | .ok a b => .ok a (v.withBank bank b)
      | .error cause b => .error cause (v.withBank bank b)

/-- Serves a request and returns its latency. -/
def request (access : Access) (bank row : Nat) (time : Time) : VaultStep Time := do
  let latency ← onBank bank (Bank.serve (← get).autoPrecharge access row time)
  modify fun v => { v with requests := v.requests + 1 }
  return latency

/-- Serves `n` requests for a row one after the other, from `elapsed` after `time` on. -/
def requestMany (access : Access) (bank row : Nat) (time : Time) : Nat → Time → VaultStep Time
  | 0, elapsed => return elapsed
  | n + 1, elapsed => do
      let latency ← request access bank row (time + elapsed)
      requestMany access bank row time n (elapsed + latency)

def mapBanks (f : Bank → Bank) (v : Vault) : Vault := { v with banks := v.banks.map f }

/-- Installs the refresh interval on every bank. -/
def setRefreshInterval (v : Vault) (interval : Time) : Vault :=
  v.mapBanks (·.setRefreshInterval interval)

def activity (v : Vault) : VaultActivity :=
  let banks := v.banks.toList.map (·.activity)
  { vault := v.id, requests := v.requests, total := .total banks, banks := banks }

/-- Forgets what the vault has done; rows stay open. -/
def resetActivity (v : Vault) : Vault := { v.mapBanks Bank.resetActivity with requests := 0 }

end Vault

end StackedCache
