import StackedCache.Proofs.Model.Related
import StackedCache.Proofs.Service.Order

/-!
# Runs with late requests

A run with late requests answers as the run in which each of them comes with the latest before it,
and counts the same but for the late requests: `run_ordered`.

Only requests that are served count here.  A model that is switched off, or a requester that is no
application core, leaves no trace of when its requests came.
-/

namespace StackedCache

/-! ## The longest of some times -/

namespace Time

theorem lt_later {t a b : Time} : t < a.later b ↔ t < a ∨ t < b := by
  unfold later
  split <;> simp only [lt_iff] at * <;> omega

theorem lt_foldl_later (spans : List Time) (t a : Time) :
    t < spans.foldl later a ↔ t < a ∨ ∃ u ∈ spans, t < u := by
  induction spans generalizing a with
  | nil => simp
  | cons span spans ih =>
      rw [List.foldl_cons, ih, lt_later, or_assoc]
      simp

/-- What is shorter than the longest of some times is shorter than one of them. -/
theorem lt_longest (spans : List Time) (t : Time) : t < longest spans ↔ ∃ u ∈ spans, t < u := by
  have first : ¬t < zero := Nat.not_lt_zero _
  rw [longest, lt_foldl_later, or_iff_right first]

theorem longest_append (spans : List Time) (t : Time) :
    longest (spans ++ [t]) = (longest spans).later t := by
  rw [longest, List.foldl_append]
  rfl

end Time

/-- The summary with more late requests. -/
def Summary.countLate (s : Summary) (late : Nat) : Summary :=
  { s with anomalies := s.anomalies + late, cache := s.cache.countLate late }

namespace Model

variable {m m' : Model} {s : Settings} {op : Operation}

/-! ## Arrivals -/

/-- The time of a request, if it is served. -/
def Operation.served? (s : Settings) (op : Operation) : Option Time :=
  match op.passed s with
  | some (.request time ..) => some time
  | _ => none

/-- What has arrived so far. -/
structure Arrivals where
  /-- The times of the requests served. -/
  times : List Time := []
  /-- The requests served that were earlier than one before them, since counts were reset. -/
  late : Nat := 0

/-- Takes note of an operation. -/
def Arrivals.note (s : Settings) (a : Arrivals) (op : Operation) : Arrivals :=
  match op.served? s with
  | some time =>
      { times := a.times ++ [time], late := a.late + if ∃ t ∈ a.times, time < t then 1 else 0 }
  | none => if op.isReset then { a with late := 0 } else a

/-- What arrives in a run. -/
def arrivals (s : Settings) (ops : List Operation) : Arrivals := ops.foldl (Arrivals.note s) {}

/-- A request that is served comes at the latest of all times so far, its own included. -/
def Operation.inOrder (s : Settings) (a : Arrivals) (op : Operation) : Operation :=
  match op.served? s with
  | some time => op.atTime (.longest (a.times ++ [time]))
  | none => op

/-- The run in which no request is late. -/
def ordered (s : Settings) (a : Arrivals) : List Operation → List Operation
  | [] => []
  | op :: ops => op.inOrder s a :: ordered s (a.note s op) ops

theorem Operation.passed_of_served? {time : Time} (h : op.served? s = some time) :
    ∃ size addr access, op.passed s = some (.request time size addr access) := by
  unfold Operation.served? at h
  split at h
  · rename_i time' size addr access passed
    cases h
    exact ⟨size, addr, access, passed⟩
  · cases h

/-! ## Models that have counted late requests -/

/-- The second model has received in time what the first one has received. -/
structure Tardy (a : Arrivals) (m m' : Model) : Prop where
  related : m.Related (Controller.Behind a.late) m'
  latest : m.controller.lastTime = .longest a.times

namespace Tardy

variable {a : Arrivals}

/-- A request has the answer that it has in time. -/
theorem serve (h : m.Tardy a m') (sound : m.Sound) {time : Time}
    (served : op.served? m.settings = some time) :
    m'.answer? (op.inOrder m.settings a) = m.answer? op ∧
      (m.perform op).Tardy (a.note m.settings op) (m'.perform (op.inOrder m.settings a)) := by
  rcases Operation.passed_of_served? served with ⟨size, addr, access, passed⟩
  have coherent := sound.controller.coherent
  have behind : m.controller.Behind a.late m'.controller := by
    rcases h.related with ⟨c, behind, rfl⟩
    exact behind
  have arrival : .longest (a.times ++ [time]) = m.controller.lastTime.later time := by
    rw [Time.longest_append, h.latest]
  have late : time < m.controller.lastTime ↔ ∃ t ∈ a.times, time < t := by
    rw [h.latest]
    exact Time.lt_longest a.times time
  have noted : a.note m.settings op =
      ⟨a.times ++ [time], a.late + if time < m.controller.lastTime then 1 else 0⟩ := by
    simp only [Arrivals.note, served, late]
  have moved : op.inOrder m.settings a = op.atTime (m.controller.lastTime.later time) := by
    simp only [Operation.inOrder, served, arrival]
  rcases behind.request coherent time size addr.toNat access with ⟨outcome, after⟩
  rcases h.related.serve passed outcome after with ⟨answer, related⟩
  rw [noted, moved]
  refine ⟨answer, related, ?_⟩
  have controller : (m.perform op).controller =
      (m.controller.request time size addr.toNat access).2 := by
    rw [(m.perform_controller op).2, passed]
    rfl
  rw [controller, Controller.request_lastTime coherent, arrival]

/-- Everything else is answered the same, and forgetting all counts forgets late requests too. -/
theorem step (h : m.Tardy a m') (sound : m.Sound) (op : Operation) :
    m'.answer? (op.inOrder m.settings a) = m.answer? op ∧
      (m.perform op).Tardy (a.note m.settings op) (m'.perform (op.inOrder m.settings a)) := by
  cases served : op.served? m.settings with
  | some time => exact h.serve sound served
  | none =>
      have noted : a.note m.settings op = if op.isReset then { a with late := 0 } else a := by
        simp only [Arrivals.note, served]
      have moved : op.inOrder m.settings a = op := by
        simp only [Operation.inOrder, served]
      rw [noted, moved]
      have requests : op.isRequest = true → Follows (Controller.Behind a.late) m m' op op ∧
          (m.perform op).controller.lastTime = .longest a.times := by
        intro request
        rcases op.passed_of_isRequest m.settings request with idle | ⟨time, _, _, _, passed⟩
        · refine ⟨h.related.idle idle, ?_⟩
          rw [(m.perform_controller op).2, idle]
          exact h.latest
        · simp [Operation.served?, passed] at served
      rcases h with ⟨⟨c, behind, rfl⟩, latest⟩
      cases op with
      | request => exact ⟨(requests rfl).1.1, (requests rfl).1.2, (requests rfl).2⟩
      | requestBy => exact ⟨(requests rfl).1.1, (requests rfl).1.2, (requests rfl).2⟩
      | tryRequest => exact ⟨(requests rfl).1.1, (requests rfl).1.2, (requests rfl).2⟩
      | setHot p hot =>
          rcases Related.setHot ⟨c, behind, rfl⟩ (behind.setHot p hot) with ⟨answer, related⟩
          refine ⟨answer, related, ?_⟩
          rcases m.controller.perform_setHot p hot with ⟨stack, marked⟩
          have controller : (m.perform (.setHot p hot)).controller =
              { m.controller with stack := stack } := (m.perform_controller _).2.trans marked
          rw [controller]
          exact latest
      | takeReading r =>
          have after : (m.perform (.takeReading r)).Tardy a
              (({ m with controller := c } : Model).perform (.takeReading r)) := by
            simp only [perform, Model.takeReading, behind.layer]
            cases m.controller.layer.setTemperature r.place r.temperature with
            | error cause => exact ⟨⟨c, behind, rfl⟩, latest⟩
            | ok layer => exact ⟨⟨_, behind.modifyLayer fun _ => layer, rfl⟩, latest⟩
          exact ⟨rfl, after⟩
      | runEpoch =>
          have same : c.layer.runEpoch = m.controller.layer.runEpoch := by rw [behind.layer]
          have after : (m.perform .runEpoch).Tardy a
              (({ m with controller := c } : Model).perform .runEpoch) := by
            simp only [perform, Model.runEpoch, same]
            exact ⟨⟨_, behind.modifyLayer fun _ => m.controller.layer.runEpoch.2, rfl⟩, latest⟩
          have report : c.layer.runEpoch.1 = m.controller.layer.runEpoch.1 := by rw [same]
          exact ⟨congrArg (some ∘ Answer.report) report, after⟩
      | resetCounts => exact ⟨rfl, ⟨_, behind.resetCounts, rfl⟩, latest⟩

/-- The models have counted the same, late requests apart. -/
theorem summary (h : m.Tardy a m') : m.summary = m'.summary.countLate a.late := by
  rcases h.related with ⟨c, behind, rfl⟩
  have counted : m.controller.statistics = c.statistics.countLate a.late := by
    rw [behind]
    rfl
  have stack : m.controller.stack = c.stack := by rw [behind]; rfl
  simp only [Model.summary, Summary.countLate, counted, stack, behind.layer,
    CacheCounts.countLate, Nat.add_assoc]

/-! ## Runs -/

theorem run (h : m.Tardy a m') (sound : m.Sound) (settings : m.settings = s)
    (ops : List Operation) :
    m'.answers (ordered s a ops) = m.answers ops ∧
      ∀ n, (m.run (ops.take n)).Tardy ((ops.take n).foldl (Arrivals.note s) a)
        (m'.run ((ordered s a ops).take n)) := by
  induction ops generalizing m m' a with
  | nil =>
      refine ⟨rfl, fun n => ?_⟩
      rw [ordered, List.take_nil]
      exact h
  | cons op ops ih =>
      subst settings
      rcases h.step sound op with ⟨answer, after⟩
      rcases ih after (sound.perform op) (m.perform_controller op).1 with ⟨answers, later⟩
      refine ⟨congrArg₂ (fun a b => a.toList ++ b) answer answers, fun n => ?_⟩
      cases n with
      | zero => exact h
      | succ n => exact later n

end Tardy

/-- Late requests are served like those that come with the latest before them: no answer changes,
and of what is counted at any time only the late requests themselves, one by one. -/
theorem run_ordered (start : ofSettings s = .ok m) (ops : List Operation) :
    m.answers (ordered s {} ops) = m.answers ops ∧
      ∀ n, (m.run (ops.take n)).summary =
        (m.run ((ordered s {} ops).take n)).summary.countLate (arrivals s (ops.take n)).late := by
  have sound := ofSettings_sound start
  rcases ofSettings_ok start with ⟨_, rfl⟩
  have begins : Tardy {} ({ settings := s, controller := .ofSettings s } : Model)
      { settings := s, controller := .ofSettings s } :=
    ⟨⟨_, .refl _, rfl⟩, rfl⟩
  rcases begins.run sound rfl ops with ⟨answers, tardy⟩
  exact ⟨answers, fun n => (tardy n).summary⟩

/-- A late write and a reading between two epochs; a request that is not served does not make those
after it late. -/
theorem run_ordered_swap :
    let s := { Settings.twoBanks .swap with applicationCores := 4 }
    let m : Model := { settings := s, controller := .ofSettings s }
    let ops (time : Nat) : List Operation :=
      [.request ⟨5000000⟩ 64 0 .read, .runEpoch, .request ⟨time⟩ 64 0 .write,
        .takeReading ⟨⟨0, 0⟩, ⟨96.0⟩⟩, .runEpoch, .requestBy 4 ⟨9000000⟩ 64 0 .read,
        .tryRequest ⟨5000000⟩ 64 0 .read]
    ofSettings s = .ok m ∧ m.answers (ops 5000000) = m.answers (ops 3000000) ∧
      (m.run (ops 3000000)).summary = (m.run (ops 5000000)).summary.countLate 1 := by
  intro s m ops
  have start : ofSettings s = .ok m := ofSettings_of_check (by decide +kernel)
  have late : ordered s {} (ops 3000000) = ops 5000000 := rfl
  rcases run_ordered start (ops 3000000) with ⟨answers, summaries⟩
  have counted := summaries (ops 3000000).length
  rw [late] at answers counted
  exact ⟨start, answers, counted⟩

/-- Where the model is switched off, a late request is not counted. -/
theorem late_unserved :
    let s := { Settings.twoBanks .swap with enabled := false }
    let m : Model := { settings := s, controller := .ofSettings s }
    let ops (time : Nat) : List Operation :=
      [.request ⟨5000⟩ 64 0 .read, .request ⟨time⟩ 64 0 .read]
    ofSettings s = .ok m ∧
      (m.run (ops 3000)).summary.cache.outOfOrder ≠
        (m.run (ops 5000)).summary.cache.outOfOrder + 1 := by
  intro s m ops
  have start : ofSettings s = .ok m := ofSettings_of_check (by decide +kernel)
  exact ⟨start, by decide +kernel⟩

end Model

end StackedCache
