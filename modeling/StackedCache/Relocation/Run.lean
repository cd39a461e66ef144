import StackedCache.Relocation.Relief
import StackedCache.Relocation.RowRecovery

/-!
# Running an epoch

Once an epoch the layer looks at all temperatures and acts by its policy.
-/

namespace StackedCache

/-- The passes of a policy. -/
def Epoch.apply (e : Epoch) (s : RelocationSettings) : Epoch :=
  match s.policy with
  | .disable => e.switchBanks
  | .vaultDisable => e.switchVaults
  | .swap =>
      let e := e.recoverBanks
      let e := if s.interVault then e.recoverVaults.relieveVaults else e
      e.relieveBanks .swapping
  | .hybrid => e.recoverBanks.recoverRows.relieveBanks .migrating

def Epoch.countFailures (e : Epoch) : Epoch :=
  e.counting fun c => { c with failures := c.failures + e.report.failures.length }

namespace Layer

def nextEpoch (l : Layer) : Epoch :=
  let epoch := l.epoch + 1
  { layer := { l with epoch := epoch, counts := { l.counts with epochs := l.counts.epochs + 1 } }
    report := { epoch := epoch } }

/-- Runs one epoch and returns what was decided.  Nothing is if relocation is switched off. -/
def runEpoch (l : Layer) : Report × Layer :=
  let start := l.nextEpoch
  let e := if l.settings.enabled then (start.apply l.settings).countFailures else start
  (e.report, e.layer)

end Layer

end StackedCache
