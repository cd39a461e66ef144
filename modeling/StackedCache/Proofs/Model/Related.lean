import StackedCache.Proofs.Model.Forgetting

/-!
# Models with related controllers

Two models that have been set up alike and have answered alike differ in their controllers only.  An
operation answers the same in both if it does in the controllers, and leaves them related as it
leaves the controllers.
-/

namespace StackedCache.Model

variable {E E' : Controller → Controller → Prop} {m m' : Model} {op : Operation}

/-- The models have related controllers, and nothing else is different. -/
def Related (E : Controller → Controller → Prop) (m m' : Model) : Prop :=
  ∃ c, E m.controller c ∧ m' = { m with controller := c }

/-- The operation answers the same and leaves related models, perhaps at another time in the second
of them. -/
def Follows (E : Controller → Controller → Prop) (m m' : Model) (op op' : Operation) : Prop :=
  m'.answer? op' = m.answer? op ∧ (m.perform op).Related E (m'.perform op')

def Operation.isRequest : Operation → Bool
  | .request .. | .requestBy .. | .tryRequest .. => true
  | _ => false

/-- A request at another time. -/
def Operation.atTime (time : Time) : Operation → Operation
  | .request _ size addr access => .request time size addr access
  | .requestBy requester _ size addr access => .requestBy requester time size addr access
  | .tryRequest _ size addr access => .tryRequest time size addr access
  | op => op

/-- A request is passed on, or answered without the controller. -/
theorem Operation.passed_of_isRequest (s : Settings) (h : op.isRequest = true) :
    op.passed s = none ∨
      ∃ time size addr access, op.passed s = some (.request time size addr access) := by
  cases enabled : s.enabled with
  | false => cases op <;> simp_all [Operation.passed, Operation.isRequest]
  | true =>
      cases op with
      | requestBy requester time size addr access =>
          simp only [Operation.passed, enabled, if_true]
          split
          · exact .inl rfl
          · exact .inr ⟨time, size, addr, access, rfl⟩
      | request time size addr access =>
          exact .inr ⟨time, size, addr, access, by simp only [Operation.passed, enabled, if_true]⟩
      | tryRequest time size addr access =>
          exact .inr ⟨time, size, addr, access, by simp only [Operation.passed, enabled, if_true]⟩
      | _ => cases h

theorem Operation.atTime_self {s : Settings} {time : Time} {size : Nat} {addr : UInt64}
    {access : Access} (h : op.passed s = some (.request time size addr access)) :
    op.atTime time = op := by
  cases op <;> simp_all [Operation.passed, Operation.atTime]

namespace Related

theorem settings (h : m.Related E m') : m'.settings = m.settings := by
  rcases h with ⟨c, _, rfl⟩
  rfl

/-- A request that asks nothing of the controller is answered by the settings alone. -/
theorem idle (h : m.Related E m') (passed : op.passed m.settings = none) :
    Follows E m m' op op := by
  have settings := h.settings
  cases op with
  | request time size addr access =>
      have off : m.settings.enabled = false := by simpa [Operation.passed] using passed
      simp [Follows, answer?, perform, request, settings, off, h]
  | requestBy requester time size addr access =>
      simp only [Operation.passed] at passed
      split at passed
      · rename_i beyond
        simp [Follows, answer?, perform, requestBy, settings, beyond, h]
      · rename_i served
        have off : m.settings.enabled = false := by simpa using passed
        simp [Follows, answer?, perform, requestBy, request, settings, served, off, h]
  | tryRequest time size addr access =>
      have off : m.settings.enabled = false := by simpa [Operation.passed] using passed
      simp [Follows, answer?, perform, tryRequest, settings, off, h]
  | _ => cases passed

section Requests

variable {time time' : Time} {size addr : Nat} {access : Access}

theorem request (h : m.Related E m') (enabled : m.settings.enabled = true)
    (outcome : (m'.controller.request time' size addr access).1 =
      (m.controller.request time size addr access).1)
    (after : E' (m.controller.request time size addr access).2
      (m'.controller.request time' size addr access).2) :
    (m'.request time' size addr access).1 = (m.request time size addr access).1 ∧
      (m.request time size addr access).2.Related E' (m'.request time' size addr access).2 := by
  rcases h with ⟨c, _, rfl⟩
  simp only [Model.request, enabled, if_true]
  generalize m.controller.request time size addr access = r,
    c.request time' size addr access = r' at outcome after ⊢
  rw [outcome]
  exact ⟨rfl, r'.2, after, rfl⟩

theorem tryRequest (h : m.Related E m') (enabled : m.settings.enabled = true)
    (outcome : (m'.controller.request time' size addr access).1 =
      (m.controller.request time size addr access).1)
    (after : E' (m.controller.request time size addr access).2
      (m'.controller.request time' size addr access).2) :
    (m'.tryRequest time' size addr access).1 = (m.tryRequest time size addr access).1 ∧
      (m.tryRequest time size addr access).2.Related E'
        (m'.tryRequest time' size addr access).2 := by
  rcases h with ⟨c, _, rfl⟩
  simp only [Model.tryRequest, enabled, if_true]
  generalize m.controller.request time size addr access = r,
    c.request time' size addr access = r' at outcome after ⊢
  simp only [outcome]
  cases r.1.fault with
  | none => exact ⟨rfl, r'.2, after, rfl⟩
  | some fault => exact ⟨rfl, r'.2, after, rfl⟩

end Requests

/-- A request is answered alike if the controllers do so. -/
theorem serve (h : m.Related E m') {time time' : Time} {size : Nat} {addr : UInt64}
    {access : Access} (passed : op.passed m.settings = some (.request time size addr access))
    (outcome : (m'.controller.request time' size addr.toNat access).1 =
      (m.controller.request time size addr.toNat access).1)
    (after : E' (m.controller.request time size addr.toNat access).2
      (m'.controller.request time' size addr.toNat access).2) :
    Follows E' m m' op (op.atTime time') := by
  cases op with
  | request =>
      simp only [Operation.passed] at passed
      split at passed
      · rename_i enabled
        cases passed
        rcases h.request enabled outcome after with ⟨latency, related⟩
        exact ⟨congrArg (some ∘ Answer.latency) latency, related⟩
      · cases passed
  | requestBy requester =>
      simp only [Operation.passed] at passed
      split at passed
      · cases passed
      · rename_i application
        split at passed
        · rename_i enabled
          cases passed
          rcases h.request enabled outcome after with ⟨latency, related⟩
          simp only [Follows, answer?, perform, Operation.atTime, requestBy, h.settings, application,
            if_false]
          exact ⟨congrArg (some ∘ Answer.latency) latency, related⟩
        · cases passed
  | tryRequest =>
      simp only [Operation.passed] at passed
      split at passed
      · rename_i enabled
        cases passed
        rcases h.tryRequest enabled outcome after with ⟨answer, related⟩
        exact ⟨congrArg (some ∘ Answer.outcome) answer, related⟩
      · cases passed
  | _ => cases passed

/-- A bank is marked in both or refused in both. -/
theorem setHot (h : m.Related E m') {p : BankPlace} {hot : Bool}
    (marked : SameOutcome E (m.controller.setHot p hot) (m'.controller.setHot p hot)) :
    Follows E m m' (.setHot p hot) (.setHot p hot) := by
  rcases h with ⟨c, related, rfl⟩
  simp only [Follows, answer?, perform, Model.setHot]
  generalize m.controller.setHot p hot = r, c.setHot p hot = r' at marked ⊢
  cases marked with
  | ok after => exact ⟨rfl, _, after, rfl⟩
  | error cause => exact ⟨rfl, c, related, rfl⟩

end Related

end StackedCache.Model
