import StackedCache.Proofs.Model.Reach

/-!
# Requests that fail

If banks and rows of the stack are counted exactly, then no request fails in any state that
operations lead to, unless the sets refuse its tag.  That takes lines of one byte and a single set.
Where it does not happen, the anomalies of a model are its requests out of order.
-/

namespace StackedCache

namespace Controller

variable {c : Controller} {s : Settings} {addr : Nat}

theorem Sound.address_lt (h : c.Sound s) (small : addr < 2 ^ addressBits) :
    c.address addr < 2 ^ addressBits := by
  unfold address
  cases paged : c.pageTable with
  | none => exact small
  | some table => exact ((h.pageTable table paged).renumber small).1

/-- Tags are refused by a single set of one-byte lines only. -/
theorem Sound.sizes_of_refuses (valid : s.Valid) (h : c.Sound s) (small : addr < 2 ^ addressBits)
    (refused : c.refuses (c.address addr) = true) :
    s.cache.design ≠ .constant ∧ s.cache.lineBytes = 1 ∧ s.cache.sets.toNat = 1 := by
  simp only [refuses, Bool.and_eq_true, decide_eq_true_eq] at refused
  rcases refused with ⟨⟨design, tag⟩, _⟩
  rcases Splitter.sizes_of_split_tag (h.address_lt small) tag with ⟨line, sets⟩
  -- The splitter has the sizes of the settings, since those are powers of two.
  have power : s.cache.lineBytes.isPowerOfTwo := by
    unfold CacheSettings.lineBytes
    split
    · exact valid.cache.pageSize
    · exact valid.cache.blockSize
  rw [h.splitter, Splitter.lineSize_ofSizes power] at line
  rw [h.splitter, Splitter.sets_ofSizes valid.cache.sets] at sets
  exact ⟨h.design ▸ design, line, sets⟩

/-- The operation is a request whose tag is refused. -/
def Operation.refused (c : Controller) : Operation → Bool
  | .request _ _ addr _ => c.refuses (c.address addr.toNat)
  | _ => false

/-- No request of the run is refused. -/
def Accepts (c : Controller) : List Operation → Prop
  | [] => True
  | op :: ops => op.refused c = false ∧ (c.perform op).Accepts ops

theorem Accepts.append {first second : List Operation} (h : c.Accepts (first ++ second)) :
    c.Accepts first ∧ (c.run first).Accepts second := by
  induction first generalizing c with
  | nil => exact ⟨trivial, h⟩
  | cons op first ih =>
      rcases h with ⟨accepted, rest⟩
      rcases ih rest with ⟨before, after⟩
      exact ⟨⟨accepted, before⟩, after⟩

end Controller

namespace Model

variable {m : Model} {s : Settings}

/-- A request that does not fail is no anomaly. -/
theorem request_anomalies (m : Model) (time : Time) (size addr : Nat) (access : Access)
    (served : m.settings.enabled = true →
      (m.controller.request time size addr access).1.fault = none) :
    (m.request time size addr access).2.anomalies = m.anomalies := by
  unfold request
  cases enabled : m.settings.enabled with
  | false => rfl
  | true => simp [served enabled, recordAnswer]

theorem tryRequest_anomalies (m : Model) (time : Time) (size addr : Nat) (access : Access) :
    (m.tryRequest time size addr access).2.anomalies = m.anomalies := by
  unfold tryRequest
  cases m.settings.enabled with
  | false => rfl
  | true =>
      simp only [if_true]
      cases (m.controller.request time size addr access).1.fault <;> rfl

/-- An operation whose request is not refused adds no anomaly. -/
theorem perform_anomalies (valid : s.Valid) (fit : s.stack.CountsFit) (settings : m.settings = s)
    (sound : m.controller.Sound s) (none_yet : m.anomalies = 0) {op : Operation}
    (accepted : m.controller.Accepts (op.passed s).toList) : (m.perform op).anomalies = 0 := by
  -- The three kinds of requests share one question to the controller.
  have served : ∀ (time : Time) (size : Nat) (addr : UInt64) (access : Access),
      m.controller.Accepts [.request time size addr access] →
        (m.controller.request time size addr.toNat access).1.fault = none := by
    intro time size addr access accepted
    have refused : m.controller.refuses (m.controller.address addr.toNat) = false := accepted.1
    rw [(Controller.request_responds valid sound addr.toNat_lt time size access).fault fit, refused]
    rfl
  cases op with
  | request time size addr access =>
      refine (m.request_anomalies time size addr.toNat access fun enabled => ?_).trans none_yet
      rw [Operation.passed, if_pos (settings ▸ enabled)] at accepted
      exact served time size addr access accepted
  | requestBy requester time size addr access =>
      simp only [perform, requestBy]
      split
      · exact none_yet
      · rename_i within
        refine (m.request_anomalies time size addr.toNat access fun enabled => ?_).trans none_yet
        rw [Operation.passed, if_neg (settings ▸ within), if_pos (settings ▸ enabled)] at accepted
        exact served time size addr access accepted
  -- Its fault is returned to the caller and never counted.
  | tryRequest time size addr access =>
      exact (m.tryRequest_anomalies time size addr.toNat access).trans none_yet
  | takeReading r =>
      simp only [perform, takeReading]
      split <;> exact none_yet
  | setHot p hot =>
      simp only [perform, setHot]
      cases m.controller.setHot p hot <;> exact none_yet
  | runEpoch => exact none_yet
  | resetCounts => rfl

/-- A run without refused requests has no anomalies but requests out of order. -/
theorem run_anomalies (valid : s.Valid) (fit : s.stack.CountsFit) (settings : m.settings = s)
    (sound : m.controller.Sound s) (none_yet : m.anomalies = 0) {ops : List Operation}
    (accepted : m.controller.Accepts (passed s ops)) : (m.run ops).anomalies = 0 := by
  induction ops generalizing m with
  | nil => exact none_yet
  | cons op ops ih =>
      -- An operation asks at most one thing of the controller, which comes first.
      have split : passed s (op :: ops) = (op.passed s).toList ++ passed s ops := by
        rw [passed, List.filterMap_cons]
        cases op.passed s <;> rfl
      rw [split] at accepted
      rcases accepted.append with ⟨first, rest⟩
      rcases m.perform_controller op with ⟨same, controller⟩
      rw [settings] at same controller
      have none_after := perform_anomalies valid fit settings sound none_yet first
      exact ih same (controller ▸ sound.run valid _) none_after (controller ▸ rest)

/-- With valid settings and banks and rows counted exactly, a request fails only if the sets refuse
its tag, in every state of the controller; and a model none of whose requests is refused has no
anomalies but its requests out of order. -/
theorem run_served (start : ofSettings s = .ok m) (fit : s.stack.CountsFit) :
    (∀ (ops : List Controller.Operation) (time : Time) (size : Nat) (addr : UInt64)
      (access : Access),
      let c := m.controller.run ops
      ((c.request time size addr.toNat access).1.fault =
        if c.refuses (c.address addr.toNat) then some (.cache (.lookupMiss noTag)) else none) ∧
      (c.refuses (c.address addr.toNat) = true →
        s.cache.design ≠ .constant ∧ s.cache.lineBytes = 1 ∧ s.cache.sets.toNat = 1)) ∧
    ∀ ops : List Operation, m.controller.Accepts (passed s ops) →
      (m.run ops).summary.anomalies = (m.run ops).summary.cache.outOfOrder := by
  rcases ofSettings_ok start with ⟨valid, rfl⟩
  have sound := Controller.ofSettings_sound valid
  constructor
  · intro ops time size addr access c
    have reached : c.Sound s := sound.run valid ops
    exact ⟨(Controller.request_responds valid reached addr.toNat_lt time size access).fault fit,
      reached.sizes_of_refuses valid addr.toNat_lt⟩
  -- Requests out of order are added to the faults only in the summary.
  · intro ops accepted
    have none_failed := run_anomalies (m := { settings := s, controller := .ofSettings s })
      valid fit rfl sound rfl accepted
    rw [summary, none_failed]
    exact Nat.zero_add _

/-- A single set of one-byte blocks. -/
def oneByte : Settings where
  stack := { vaults := 2, vaultSize := 65536, bankSize := 32768 }
  cache := { design := .alloy, sets := 1, blockSize := 1, pageSize := 1 }

/-- The last address is refused, and other requests are anomalies only if they are late. -/
theorem run_served_oneByte :
    let m : Model := { settings := oneByte, controller := .ofSettings oneByte }
    let ops : List Operation := [.request ⟨5⟩ 1 0 .write, .request ⟨3⟩ 1 1 .read]
    ofSettings oneByte = .ok m ∧ oneByte.stack.CountsFit ∧
      ((m.controller.run []).request ⟨0⟩ 1 (UInt64.ofNat noTag).toNat .read).1.fault =
        some (.cache (.lookupMiss noTag)) ∧
      m.controller.Accepts (passed oneByte ops) ∧ (m.run ops).summary.anomalies = 1 := by
  intro m ops
  have checked : oneByte.check = .ok () := by decide +kernel
  have start : ofSettings oneByte = .ok m := by
    rw [ofSettings, checked]
    rfl
  have fit : oneByte.stack.CountsFit := ⟨by decide, by decide⟩
  have refused : m.controller.refuses (m.controller.address (UInt64.ofNat noTag).toNat) = true := by
    decide +kernel
  have accepted : m.controller.Accepts (passed oneByte ops) :=
    ⟨by decide +kernel, by decide +kernel, trivial⟩
  have late : (m.run ops).summary.cache.outOfOrder = 1 := by decide +kernel
  rcases run_served start fit with ⟨served, anomalies⟩
  have fault := (served [] ⟨0⟩ 1 (UInt64.ofNat noTag) .read).1
  rw [Controller.run, List.foldl_nil, refused] at fault
  exact ⟨start, fit, fault, accepted, (anomalies ops accepted).trans late⟩

end Model

end StackedCache
