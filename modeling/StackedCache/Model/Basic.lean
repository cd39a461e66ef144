import StackedCache.Model.Summary
import StackedCache.Service.Request

/-!
# The model

A `Model` is what a simulator of a whole machine talks to.  It answers requests with latencies, takes
temperature readings and runs the relocation of an epoch.

An answer to a request never fails.  When serving it does, the request is an anomaly and takes the
time that had elapsed until then.
-/

namespace StackedCache

/-- A temperature measured at a physical bank. -/
structure Reading where
  place : BankPlace
  temperature : Celsius
  deriving Inhabited

/-- A cache in a DRAM stack, with its relocation layer. -/
structure Model where
  settings : Settings
  controller : Controller
  /-- Requests answered. -/
  accesses : Nat := 0
  /-- Their latencies, added up. -/
  totalLatency : Time := .zero
  /-- Requests that failed. -/
  anomalies : Nat := 0

namespace Model

/-- A model at rest, if the settings pass the check. -/
def ofSettings (s : Settings) : Except SettingsFault Model :=
  s.check.map fun _ => { settings := s, controller := .ofSettings s }

/-! ## Requests -/

def recordAnswer (m : Model) (latency : Time) : Model :=
  { m with accesses := m.accesses + 1, totalLatency := m.totalLatency + latency }

def request (m : Model) (time : Time) (size addr : Nat) (access : Access) : Time × Model :=
  if m.settings.enabled then
    let (outcome, c) := m.controller.request time size addr access
    let failed := if outcome.fault.isSome then 1 else 0
    let m := { m with controller := c, anomalies := m.anomalies + failed }
    (outcome.latency, m.recordAnswer outcome.latency)
  else (.zero, m)

/-- The latency of a request of a numbered requester.  Requesters beyond the application cores are
not served and wait for nothing. -/
def requestBy (m : Model) (requester : Nat) (time : Time) (size addr : Nat) (access : Access) :
    Time × Model :=
  if m.settings.applicationCores.toNat ≤ requester then (.zero, m)
  else m.request time size addr access

/-- The latency of a request, or the fault it met; then it is not among the answers. -/
def tryRequest (m : Model) (time : Time) (size addr : Nat) (access : Access) :
    Except Fault Time × Model :=
  if m.settings.enabled then
    let (outcome, c) := m.controller.request time size addr access
    let m := { m with controller := c }
    match outcome.fault with
    | none => (.ok outcome.latency, m.recordAnswer outcome.latency)
    | some fault => (.error fault, m)
  else (.ok .zero, m)

/-! ## Heat -/

/-- Takes a reading; one for a bank that does not exist is dropped. -/
def takeReading (m : Model) (r : Reading) : Model :=
  match m.controller.layer.setTemperature r.place r.temperature with
  | .ok layer => { m with controller := m.controller.modifyLayer fun _ => layer }
  | .error _ => m

def takeReadings (m : Model) (rs : List Reading) : Model := rs.foldl takeReading m

/-- Runs the relocation of an epoch with the temperatures as they are. -/
def runEpoch (m : Model) : Report × Model :=
  let (report, layer) := m.controller.layer.runEpoch
  (report, { m with controller := m.controller.modifyLayer fun _ => layer })

/-- Takes the readings that a source has for the next epoch and runs it. -/
def thermalEpoch {μ : Type → Type} [Monad μ] (m : Model) (source : Nat → μ (List Reading)) :
    μ (Report × Model) := do
  let readings ← source (m.controller.layer.epoch + 1)
  return (m.takeReadings readings).runEpoch

/-- Marks a physical bank as hot or not, which changes how often it is refreshed. -/
def setHot (m : Model) (p : BankPlace) (hot : Bool) : Except TimingFault Model :=
  (m.controller.setHot p hot).map fun c => { m with controller := c }

/-! ## Statistics -/

def summary (m : Model) : Summary :=
  let cache := m.controller.statistics
  { accesses := m.accesses
    totalLatency := m.totalLatency
    anomalies := m.anomalies + cache.outOfOrder
    cache := cache
    stack := m.controller.stack.activity
    relocation := m.controller.layer.summary }

/-- Forgets all counts; content, places and temperatures stay. -/
def resetCounts (m : Model) : Model :=
  { m with
    controller := m.controller.resetCounts
    accesses := 0
    totalLatency := .zero
    anomalies := 0 }

end Model

end StackedCache
