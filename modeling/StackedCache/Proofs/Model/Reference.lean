import StackedCache.Proofs.Model.Ledger
import StackedCache.Proofs.Service.Reference

/-!
# The model and the reference cache

A model at rest has empty shelves, and wherever operations lead it, it goes on as the reference cache
does.
-/

namespace StackedCache

namespace Model

variable {m : Model} {s : Settings}

/-- A cache of sets refines the reference cache. -/
theorem run_refines (start : ofSettings s = .ok m) (design : s.cache.design ≠ .constant) :
    (∀ i, m.controller.shelf i = ∅) ∧ ∀ ops, (m.run ops).controller.Refines s := by
  rcases ofSettings_ok start with ⟨valid, rfl⟩
  refine ⟨Controller.ofSettings_shelf s, fun ops => ?_⟩
  rw [(run_controller _ ops).2]
  have sound := Controller.ofSettings_sound valid
  have built := Controller.ofSettings_built s
  exact (sound.run valid _).refines valid (sound.run_built valid built design _) design

/-- Three requests to a page: the page is missing, then a block of it, and then nothing. -/
theorem run_refines_page :
    let m : Model := { settings := twoSets, controller := .ofSettings twoSets }
    let ops : List Operation :=
      [.request ⟨0⟩ 64 0 .read, .request ⟨0⟩ 64 64 .read, .request ⟨0⟩ 64 64 .write]
    ofSettings twoSets = .ok m ∧ twoSets.cache.design ≠ .constant ∧
      (m.run ops).controller.counts.classes = (0, 2, 1, 1) ∧
      (m.run ops).controller.Refines twoSets := by
  intro m ops
  have start : ofSettings twoSets = .ok m := ofSettings_of_check (by decide +kernel)
  have design : twoSets.cache.design ≠ .constant := by decide
  have classes : (m.run ops).controller.counts.classes = (0, 2, 1, 1) := by decide +kernel
  exact ⟨start, design, classes, (run_refines start design).2 ops⟩

end Model

end StackedCache
