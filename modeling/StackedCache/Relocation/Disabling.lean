import StackedCache.Relocation.Epoch

/-!
# Disabling hot entities

The two policies that only switch on and off.  A bank, or a vault, is taken out of use once it is
hot, and into use again only when it is cool; between the two thresholds it stays as it is.
-/

namespace StackedCache.Epoch

/-- Switches one bank by the temperature of its physical bank. -/
def switchBank (e : Epoch) (id : Nat) : Epoch :=
  let t := e.layer.temperatureOf id
  if e.layer.bankDisabled id then
    if t.below e.layer.settings.cool then e.enableBank id else e
  else if t.reaches e.layer.settings.high then e.disableBank id false
  else e

def switchBanks (e : Epoch) : Epoch := e.throughBanks switchBank

/-- The mean temperature of the physical vault a logical vault is on. -/
def vaultTemperatureOf (e : Epoch) (vault : Nat) : Celsius :=
  e.layer.ledger.vaultTemperature ((e.layer.mapping.vaults.target? vault).getD vault)

/-- Switches one vault by its mean temperature. -/
def switchVault (e : Epoch) (vault : Nat) : Epoch :=
  let t := e.vaultTemperatureOf vault
  if e.layer.vaultDisabled vault then
    if t.below e.layer.settings.cool then e.enableVault vault else e
  else if t.reaches e.layer.settings.high then e.disableVault vault
  else e

def switchVaults (e : Epoch) : Epoch := e.throughVaults switchVault

end StackedCache.Epoch
