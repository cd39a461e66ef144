import StackedCache.Proofs.Model.Ledger
import StackedCache.Proofs.Service.Training

/-!
# The model and its footprint history

Wherever operations lead a cache of pages, it predicts what the log of the run says: the blocks that
were demanded of the page evicted last, among those that were filled because of a block with the same
remainder.
-/

namespace StackedCache

namespace Model

variable {m : Model} {s : Settings}

/-- In a cache of pages, the blocks predicted are those that a page was used for, and they are within
a page; what relocation drops has no part in it.  A request that is served loads no more than a page.
If its page is missing, the block asked for and those predicted are loaded, and no others. -/
theorem run_trains (start : ofSettings s = .ok m) (design : s.cache.design = .unison)
    (ops : List Operation) :
    let c := (m.run ops).controller
    let log := m.controller.pageVisits (passed s ops) []
    (∀ addr,
      c.predicted addr =
          PageVisit.lastUsed s.cache.footprintEntries.toNat (c.wanted addr) log ∧
        c.settled.predicted addr = c.predicted addr ∧
        c.predicted addr ⊆ Finset.range s.cache.blocksPerPage) ∧
      ∀ (time : Time) (size : Nat) (addr : UInt64) (access : Access),
        let r := c.request time size addr.toNat access
        let split := c.splitOf addr.toNat
        r.1.fault = none → c.passesBy addr.toNat = false →
          ∃ loaded, r.2.counts.loadedBlocks = c.counts.loadedBlocks + loaded ∧
            loaded * s.cache.blockSize.toNat ≤ s.cache.pageSize.toNat ∧
            (split.tag ∉ c.settled.residents split.set →
              let blocks := insert (c.wanted addr.toNat) (c.predicted addr.toNat)
              (r.2.shelf split.set).lookup split.tag = some blocks ∧ loaded = blocks.card) := by
  intro c log
  rcases ofSettings_ok start with ⟨valid, rfl⟩
  have reached : c = (Controller.ofSettings s).run (passed s ops) := (run_controller _ ops).2
  have rest := Controller.ofSettings_sound valid
  have sound : c.Sound s := reached ▸ rest.run valid _
  have remembers : c.Remembers s log :=
    reached ▸ (Controller.ofSettings_remembers valid design).run valid design rest _
  refine ⟨fun addr => ⟨?_, c.settled_predicted addr, remembers.predicted_subset addr⟩, ?_⟩
  · exact remembers.predicts.predicted _
  · intro time size addr access r split served used
    rcases remembers.request_loads valid design sound addr.toNat_lt served used with
      ⟨loaded, loads, few, fills⟩
    refine ⟨loaded, loads, ?_, fills⟩
    calc loaded * s.cache.blockSize.toNat
        ≤ s.cache.blocksPerPage * s.cache.blockSize.toNat := Nat.mul_le_mul_right _ few
      _ ≤ s.cache.pageSize.toNat := Nat.div_mul_le_self _ _

/-- Two sets with room for one page each. -/
def onePage : Settings where
  stack := { vaults := 2, vaultSize := 65536, bankSize := 32768 }
  cache := { sets := 2, associativity := 1 }

/-- A page is filled because of its first block, its fourth block is written, and another page takes
its place because of the sixth block.  Then the bank of both gets hot. -/
def displaced : List Operation :=
  [.request ⟨0⟩ 64 0 .read, .request ⟨0⟩ 64 192 .write, .request ⟨0⟩ 64 2368 .read,
    .takeReading ⟨⟨0, 0⟩, ⟨90.0⟩⟩, .runEpoch]

/-- A third page comes with the two blocks that the first one was used for.  The second one has been
dropped, and nothing is known of its block. -/
theorem run_trains_dropped :
    let m : Model := { settings := onePage, controller := .ofSettings onePage }
    let c := (m.run displaced).controller
    let r := c.request ⟨1000⟩ 64 (4096 : UInt64).toNat .read
    ofSettings onePage = .ok m ∧ onePage.cache.design = .unison ∧
      c.residents 0 = [1] ∧ c.settled.residents 0 = [] ∧
      PageVisit.lastUsed 64 5 (m.controller.pageVisits (passed onePage displaced) []) = ∅ ∧
      c.predicted (4096 : UInt64).toNat = {0, 3} ∧
      r.1.fault = none ∧ c.passesBy (4096 : UInt64).toNat = false ∧
      r.2.counts.loadedBlocks = c.counts.loadedBlocks + 2 ∧ (r.2.shelf 0).lookup 2 = some {0, 3} := by
  intro m
  have start : ofSettings onePage = .ok m := ofSettings_of_check (by decide +kernel)
  have trains := run_trains start rfl displaced
  have last : PageVisit.lastUsed 64 0 (m.controller.pageVisits (passed onePage displaced) []) =
      {0, 3} := by decide +kernel
  have unlearnt : PageVisit.lastUsed 64 5 (m.controller.pageVisits (passed onePage displaced) []) =
      ∅ := by decide +kernel
  have wanted : (m.run displaced).controller.wanted (4096 : UInt64).toNat = 0 := by decide +kernel
  have split : (m.run displaced).controller.splitOf (4096 : UInt64).toNat =
      { set := 0, tag := 2, offset := 0 } := by decide +kernel
  have held : (m.run displaced).controller.residents 0 = [1] := by decide +kernel
  have gone : (m.run displaced).controller.settled.residents 0 = [] := by decide +kernel
  have served : ((m.run displaced).controller.request ⟨1000⟩ 64 (4096 : UInt64).toNat .read).1.fault =
      none := by decide +kernel
  have used : (m.run displaced).controller.passesBy (4096 : UInt64).toNat = false := by
    decide +kernel
  -- From here on it does not matter how the pages have come and gone.
  generalize (m.run displaced).controller = c at trains wanted split held gone served used ⊢
  generalize m.controller.pageVisits (passed onePage displaced) [] = log at trains last unlearnt ⊢
  rcases trains with ⟨trained, fills⟩
  have predicted : c.predicted (4096 : UInt64).toNat = {0, 3} := by
    rw [(trained _).1, wanted]
    exact last
  have missing : (c.splitOf (4096 : UInt64).toNat).tag ∉
      c.settled.residents (c.splitOf (4096 : UInt64).toNat).set := by
    rw [split, gone]
    exact List.not_mem_nil
  rcases fills ⟨1000⟩ 64 4096 .read served used with ⟨loaded, loads, _, filled⟩
  rcases filled missing with ⟨present, rfl⟩
  rw [wanted, predicted] at present loads
  rw [split] at present
  exact ⟨start, rfl, held, gone, unlearnt, predicted, served, used, loads, present⟩

end Model

end StackedCache
