import StackedCache.Relocation.Disabling

/-!
# Recovery

What cools down recovers: a disabled bank is used again, and a displaced bank or vault goes home if
its home is cool as well.  Whoever has taken its home takes over the place it leaves, so both have
to be out of their cooldown.
-/

namespace StackedCache.Epoch

/-- Sends the bank in a slot home and whoever is there to the place it leaves. -/
def sendBankHome (e : Epoch) (id : Nat) : Epoch :=
  let m := e.layer.mapping
  let slot := m.slotOf id
  match m.banks.source? slot with
  | none => e
  | some occupant =>
      let other := m.ownerOfSlot occupant
      if e.layer.bankFrozen other then e
      else
        match m.banks.sendHome? slot with
        | some (_, banks) =>
            ((e.withMapping { m with banks := banks }).banksMoved id other).bankRecovered id
        | none => e

/-- The slot of a bank is another bank's place, and it is time for the bank to go back there. -/
def bankMayGoHome (e : Epoch) (id : Nat) : Bool :=
  let slot := e.layer.mapping.slotOf id
  !e.layer.mapping.banks.fixes slot && !e.layer.bankFrozen id
    && !(e.layer.ledger.temperature slot).reaches e.layer.settings.cool

/-- Lets one bank recover, unless its physical bank is too warm. -/
def recoverBank (e : Epoch) (id : Nat) : Epoch :=
  if (e.layer.temperatureOf id).reaches e.layer.settings.cool then e
  else if e.layer.bankDisabled id then e.enableBank id
  else if e.bankMayGoHome id then e.sendBankHome id
  else e

/-- Lets all banks recover. -/
def recoverBanks (e : Epoch) : Epoch := e.throughBanks recoverBank

/-- Sends a vault home and whoever is there to the place it leaves. -/
def sendVaultHome (e : Epoch) (vault : Nat) : Epoch :=
  let m := e.layer.mapping
  match m.vaults.source? vault with
  | none => e
  | some occupant =>
      if e.layer.vaultFrozen occupant then e
      else
        match m.vaults.sendHome? vault with
        | some (_, vaults) =>
            ((e.withMapping { m with vaults := vaults }).vaultsMoved vault occupant).vaultRecovered
              vault
        | none => e

/-- The vault is not at home, and both its place and its home are cool enough. -/
def vaultMayGoHome (e : Epoch) (vault : Nat) : Bool :=
  !e.layer.mapping.vaults.fixes vault && !e.layer.vaultFrozen vault
    && !(e.vaultTemperatureOf vault).reaches e.layer.settings.cool
    && !(e.layer.ledger.vaultTemperature vault).reaches e.layer.settings.cool

def recoverVault (e : Epoch) (vault : Nat) : Epoch :=
  if e.vaultMayGoHome vault then e.sendVaultHome vault else e

/-- Lets all vaults recover. -/
def recoverVaults (e : Epoch) : Epoch := e.throughVaults recoverVault

end StackedCache.Epoch
