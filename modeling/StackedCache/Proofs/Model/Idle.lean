import StackedCache.Proofs.Model.Reach
import StackedCache.Proofs.Relocation.Safety
import StackedCache.Proofs.Service.Idle

/-!
# Banks out of use in the model

In a cache of sets, a bank out of use holds nothing that the next request could find, and requests to
it do nothing but draw the consequences of relocation and wait for the memory behind the cache.  The
physical bank it is on stays as it is too: `run_leaves_disabled`.

The policy that moves rows is the exception.  A row of a bank in use may have moved to a physical
bank whose own bank is out of use by now, and requests to the row are still served there:
see `redirected_row_served`.
-/

namespace StackedCache.Model

variable {m : Model} {s : Settings}

theorem run_idle_sound (start : ofSettings s = .ok m) (design : s.cache.design ≠ .constant)
    (ops : List Operation) :
    s.Valid ∧ (m.run ops).controller.Sound s ∧ (m.run ops).controller.Idle s := by
  rcases ofSettings_ok start with ⟨valid, rfl⟩
  rw [(run_controller _ ops).2]
  have sound := Controller.ofSettings_sound valid
  have built := Controller.ofSettings_built s
  have idle := Controller.ofSettings_idle s
  exact ⟨valid, sound.run valid _, sound.run_idle valid built idle design _⟩

/-- In a cache of sets, the sets in a bank out of use are empty, unless their content is still marked
as dropped.  Once the consequences of relocation are drawn, a request to such a set changes neither
sets nor predictions nor the stack.  Where whole banks or vaults move, no request changes the
physical bank that a bank out of use is on. -/
theorem run_leaves_disabled (start : ofSettings s = .ok m) (design : s.cache.design ≠ .constant)
    (ops : List Operation) :
    let c := (m.run ops).controller
    (∀ (i : Nat) (set : CacheSet), c.sets[i]? = some set →
      c.layer.disabled set.placement.place = true →
        (∀ l ∈ set.lines, l.isValid = false) ∨
          c.layer.contentValid set.placement.place = false) ∧
      ∀ time size (addr : UInt64) access,
        let r := c.request time size addr.toNat access
        (c.passesBy addr.toNat = true → r.1.fault = none ∧ r.2.sets = c.settled.sets ∧
          r.2.organisation = c.settled.organisation ∧ r.2.stack = c.settled.stack) ∧
        (s.relocation.policy ≠ .hybrid → ∀ p q, c.layer.logicalPlace p = .ok q →
          c.layer.disabled q = true → r.2.stack.bank? p = c.stack.bank? p) := by
  intro c
  rcases run_idle_sound start design ops with ⟨valid, sound, idle⟩
  refine ⟨fun i set held off => idle.vacant held off, ?_⟩
  intro time size addr access r
  constructor
  · intro past
    rcases sound.exists_settled valid design addr.toNat with ⟨set, held⟩
    have disabled := (Controller.passesBy_eq held).symm.trans past
    rcases sound.request_passes design addr.toNat_lt held disabled time size access with
      ⟨fault, passes⟩
    exact ⟨fault, passes.sets, passes.organisation.trans c.settled_organisation.symm,
      passes.stack.trans c.settled_stack.symm⟩
  · intro policy p q owner off
    rcases sound.request_redirects valid design addr.toNat_lt owner off time size access with
      same | ⟨row, _, _, redirected⟩
    · exact same
    · exact absurd redirected (Layer.not_redirects (idle.whole policy))

/-- A bank with a page in it gets too hot to be used. -/
theorem run_leaves_disabled_hot :
    let s := Settings.twoBanks .disable
    let m : Model := { settings := s, controller := .ofSettings s }
    let ops : List Operation :=
      [.request ⟨0⟩ 64 0 .write, .takeReading ⟨⟨0, 0⟩, ⟨96.0⟩⟩, .runEpoch]
    let c := (m.run ops).controller
    let r := c.request ⟨1000000⟩ 64 (0 : UInt64).toNat .read
    ofSettings s = .ok m ∧ s.cache.design ≠ .constant ∧
      c.layer.logicalPlace ⟨0, 0⟩ = .ok ⟨0, 0⟩ ∧ c.layer.disabled ⟨0, 0⟩ = true ∧
      c.passesBy (0 : UInt64).toNat = true ∧ c.validBlocks = 1 ∧ c.settled.validBlocks = 0 ∧
      r.2.sets = c.settled.sets ∧ r.2.stack.bank? ⟨0, 0⟩ = c.stack.bank? ⟨0, 0⟩ := by
  intro s m ops
  have start : ofSettings s = .ok m := ofSettings_of_check (by decide +kernel)
  have design : s.cache.design ≠ .constant := by decide
  have policy : s.relocation.policy ≠ .hybrid := by decide
  have left := (run_leaves_disabled start design ops).2 ⟨1000000⟩ 64 0 .read
  have held : (m.run ops).controller.layer.geometry.holds ⟨0, 0⟩ = true := by decide +kernel
  have here : (m.run ops).controller.layer.geometry.bankAt
      ((m.run ops).controller.layer.mapping.logicalOf
        ((m.run ops).controller.layer.geometry.bankId ⟨0, 0⟩)) = ⟨0, 0⟩ := by decide +kernel
  have owner := (Layer.logicalPlace_of_holds held).trans (congrArg Except.ok here)
  have off : (m.run ops).controller.layer.disabled ⟨0, 0⟩ = true := by decide +kernel
  have past : (m.run ops).controller.passesBy (0 : UInt64).toNat = true := by decide +kernel
  have blocks : (m.run ops).controller.validBlocks = 1 ∧
      (m.run ops).controller.settled.validBlocks = 0 := by decide +kernel
  -- From here on it does not matter what the controller has been through.
  generalize (m.run ops).controller = c at left owner off past blocks ⊢
  exact ⟨start, design, owner, off, past, blocks.1, blocks.2, (left.1 past).2.1,
    left.2 policy ⟨0, 0⟩ ⟨0, 0⟩ owner off⟩

/-- In a cache of sets, a request changes the physical bank that a bank out of use is on only under
the policy that moves rows, and only if the bank of its set is in use and the row of the set is
redirected to that physical bank. -/
theorem run_reaches_disabled (start : ofSettings s = .ok m) (design : s.cache.design ≠ .constant)
    (ops : List Operation) (time : Time) (size : Nat) (addr : UInt64) (access : Access)
    (p q : BankPlace) :
    let c := (m.run ops).controller
    c.layer.logicalPlace p = .ok q → c.layer.disabled q = true →
      (c.request time size addr.toNat access).2.stack.bank? p ≠ c.stack.bank? p →
      s.relocation.policy = .hybrid ∧
        ∃ row, c.rows[(c.splitOf addr.toNat).set]? = some row ∧
          c.layer.disabled row.place = false ∧ c.layer.Redirects row p := by
  intro c owner off changed
  rcases run_idle_sound start design ops with ⟨valid, sound, idle⟩
  rcases sound.request_redirects valid design addr.toNat_lt owner off time size access with
    same | ⟨row, held, used, redirected⟩
  · exact absurd same changed
  · refine ⟨?_, row, held, used, redirected⟩
    by_contra policy
    exact Layer.not_redirects (idle.whole policy) redirected

/-- Operations that leave a row behind.  It moves away from a hot bank, which cools down again; then
the bank that has got it becomes dangerously hot, and is disabled, since no requests have used rows of
its own that could move. -/
def rowLeftBehind : List Operation :=
  [.request ⟨0⟩ 64 0 .read, .takeReading ⟨⟨0, 0⟩, ⟨90.0⟩⟩, .runEpoch,
    .request ⟨1000000⟩ 64 0 .read, .runEpoch, .takeReading ⟨⟨0, 0⟩, ⟨50.0⟩⟩,
    .takeReading ⟨⟨0, 1⟩, ⟨96.0⟩⟩, .runEpoch]

/-- A request asks for the row that is left behind. -/
theorem run_reaches_disabled_moved :
    let s := Settings.twoBanks .hybrid
    let m : Model := { settings := s, controller := .ofSettings s }
    let c := (m.run rowLeftBehind).controller
    let c' := (c.request ⟨2000000⟩ 64 (0 : UInt64).toNat .read).2
    ofSettings s = .ok m ∧ s.cache.design ≠ .constant ∧
      c.layer.logicalPlace ⟨0, 1⟩ = .ok ⟨0, 1⟩ ∧ c.layer.disabled ⟨0, 1⟩ = true ∧
      c'.stack.bank? ⟨0, 1⟩ ≠ c.stack.bank? ⟨0, 1⟩ ∧
      ∃ row, c.rows[(c.splitOf (0 : UInt64).toNat).set]? = some row ∧
        c.layer.Redirects row ⟨0, 1⟩ := by
  intro s m
  have start : ofSettings s = .ok m := ofSettings_of_check (by decide +kernel)
  have design : s.cache.design ≠ .constant := by decide
  have reached := run_reaches_disabled start design rowLeftBehind ⟨2000000⟩ 64 0 .read ⟨0, 1⟩ ⟨0, 1⟩
  have held : (m.run rowLeftBehind).controller.layer.geometry.holds ⟨0, 1⟩ = true := by
    decide +kernel
  have here : (m.run rowLeftBehind).controller.layer.geometry.bankAt
      ((m.run rowLeftBehind).controller.layer.mapping.logicalOf
        ((m.run rowLeftBehind).controller.layer.geometry.bankId ⟨0, 1⟩)) = ⟨0, 1⟩ := by
    decide +kernel
  have owner := (Layer.logicalPlace_of_holds held).trans (congrArg Except.ok here)
  have off : (m.run rowLeftBehind).controller.layer.disabled ⟨0, 1⟩ = true := by decide +kernel
  have counted : (((m.run rowLeftBehind).controller.request ⟨2000000⟩ 64 (0 : UInt64).toNat
      .read).2.stack.bank? ⟨0, 1⟩).map (fun b => b.activity) ≠
        ((m.run rowLeftBehind).controller.stack.bank? ⟨0, 1⟩).map (fun b => b.activity) := by
    decide +kernel
  -- From here on it does not matter how the row has got there.
  generalize (m.run rowLeftBehind).controller = c at reached owner off counted ⊢
  have changed : (c.request ⟨2000000⟩ 64 (0 : UInt64).toNat .read).2.stack.bank? ⟨0, 1⟩ ≠
      c.stack.bank? ⟨0, 1⟩ := fun same => counted (congrArg (Option.map fun b => b.activity) same)
  rcases (reached owner off changed).2 with ⟨row, found, _, redirected⟩
  exact ⟨start, design, owner, off, changed, row, found, redirected⟩

/-- The bank out of use serves the request: it has done two reads before, and four afterwards. -/
theorem redirected_row_served :
    let s := Settings.twoBanks .hybrid
    let m : Model := { settings := s, controller := .ofSettings s }
    let c := (m.run rowLeftBehind).controller
    let reads (c : Controller) := (c.stack.bank? ⟨0, 1⟩).map fun b => b.activity.reads
    ofSettings s = .ok m ∧ s.cache.design = .unison ∧ s.relocation.policy = .hybrid ∧
      c.layer.logicalPlace ⟨0, 1⟩ = .ok ⟨0, 1⟩ ∧ c.layer.disabled ⟨0, 1⟩ = true ∧
      reads c = some 2 ∧ reads (c.request ⟨2000000⟩ 64 0 .read).2 = some 4 := by
  intro s m c reads
  have start : ofSettings s = .ok m := ofSettings_of_check (by decide +kernel)
  have held : c.layer.geometry.holds ⟨0, 1⟩ = true := by decide +kernel
  have here : c.layer.geometry.bankAt (c.layer.mapping.logicalOf (c.layer.geometry.bankId ⟨0, 1⟩)) =
      ⟨0, 1⟩ := by decide +kernel
  have owner := (Layer.logicalPlace_of_holds held).trans (congrArg Except.ok here)
  exact ⟨start, rfl, rfl, owner, by decide +kernel, by decide +kernel, by decide +kernel⟩

end StackedCache.Model
