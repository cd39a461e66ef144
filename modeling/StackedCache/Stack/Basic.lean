import StackedCache.Placement
import StackedCache.Stack.Vault

/-!
# The stack

The vaults of the stack and the link to them.  A transfer is split into requests of a fixed size,
which the target vault serves back to back; then the data crosses the link.

All locations here are physical ones.
-/

namespace StackedCache

/-- A DRAM stack. -/
structure Stack where
  geometry : Geometry
  vaults : Array Vault
  /-- The rate of the link. -/
  bandwidth : Bandwidth
  /-- Bytes moved by one request. -/
  requestBytes : Nat
  rowSize : Nat
  deriving Inhabited

/-- What a transfer took. -/
structure Transfer where
  latency : Time
  requests : Nat
  deriving DecidableEq, Repr

/-- A step of the stack.  When it fails, what it did before stays done. -/
abbrev StackStep := EStateM TimingFault Stack

namespace Stack

/-- The stack with the given settings, at rest. -/
def ofSettings (s : StackSettings) : Stack :=
  let vault (id : Nat) : Vault :=
    let fresh := Vault.ofSizes id s.vaultSize.toNat s.bankSize.toNat s.rowSize.toNat s.autoPrecharge
      s.speed
    if s.refresh then fresh.setRefreshInterval s.speed.refreshInterval else fresh
  { geometry := .ofSettings s
    vaults := (Array.range s.vaults.toNat).map vault
    bandwidth := s.bandwidth
    requestBytes := s.requestBytes.toNat
    rowSize := s.rowSize.toNat }

/-- The place of an address, interleaved in units of a request. -/
def locate (s : Stack) (addr : Nat) : Location := s.geometry.locateAddress addr s.requestBytes

def vault? (s : Stack) (vault : Nat) : Option Vault := s.vaults[vault]?

def bank? (s : Stack) (p : BankPlace) : Option Bank := do (← s.vault? p.vault).banks[p.bank]?

/-- The stack with another vault in place of the given one. -/
def withVault (s : Stack) (vault : Nat) (v : Vault) : Stack :=
  { s with vaults := s.vaults.setIfInBounds vault v }

def onVault {α : Type} (vault : Nat) (step : VaultStep α) : StackStep α := fun s =>
  match s.vaults[vault]? with
  | none => .error (.vaultOutOfRange vault s.geometry.vaults) s
  | some v =>
      match step v with
      | .ok a v => .ok a (s.withVault vault v)
      | .error cause v => .error cause (s.withVault vault v)

/-- Requests needed for a transfer; an empty one still needs one. -/
def requestsFor (s : Stack) (bytes : Nat) : Nat :=
  max 1 ((bytes + (s.requestBytes - 1)) / s.requestBytes)

def transfer (access : Access) (bytes : Nat) (l : Location) (time : Time) : StackStep Transfer := do
  let s ← get
  let requests := s.requestsFor bytes
  let served ← onVault l.vault (Vault.requestMany access l.bank l.row time requests .zero)
  return { latency := served + s.bandwidth.transferTime bytes, requests := requests }

def setHot (p : BankPlace) (hot : Bool) : StackStep Unit :=
  onVault p.vault (Vault.onBank p.bank (modify (·.setHot hot)))

def activity (s : Stack) : List VaultActivity := s.vaults.toList.map (·.activity)

/-- Forgets what the stack has done; rows stay open. -/
def resetActivity (s : Stack) : Stack := { s with vaults := s.vaults.map Vault.resetActivity }

end Stack

end StackedCache
