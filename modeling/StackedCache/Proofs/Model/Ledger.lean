import StackedCache.Proofs.Model.Reach

/-!
# The ledger of blocks

Over any run, the blocks written back and the dirty blocks in the cache are together the blocks that
writes have made dirty; and the blocks loaded are those in the cache, those of replaced lines and
those that relocation has invalidated.  Operations are tallied by the sets before and after them,
once the consequences of relocation are drawn.
-/

namespace StackedCache

namespace Controller

variable {c : Controller} {s : Settings}

/-- The blocks that a request to write makes dirty. -/
def Operation.dirtied (c : Controller) : Operation → Nat
  | .request time size addr .write =>
      c.settled.dirtied (c.request time size addr.toNat .write).2
  | _ => 0

/-- The blocks of the lines that a request replaces. -/
def Operation.replaced (c : Controller) : Operation → Nat
  | .request time size addr access =>
      c.settled.replaced (c.request time size addr.toNat access).2
  | _ => 0

/-- Adds up what each operation of a run amounts to. -/
def tally (amount : Controller → Operation → Nat) (c : Controller) : List Operation → Nat
  | [] => 0
  | op :: ops => amount c op + tally amount (c.perform op) ops

/-- What an operation adds to the ledger, if it does not reset the counts. -/
theorem Sound.perform_ledger (valid : s.Valid) (h : c.Sound s) {op : Operation}
    (keep : op ≠ .resetCounts) :
    (c.perform op).counts.writebackBlocks + (c.perform op).dirtyBlocks =
        c.counts.writebackBlocks + c.dirtyBlocks + op.dirtied c ∧
      (c.perform op).validBlocks + op.replaced c + (c.perform op).counts.invalidatedBlocks +
          c.counts.loadedBlocks =
        c.validBlocks + c.counts.invalidatedBlocks + (c.perform op).counts.loadedBlocks := by
  cases op with
  | request time size addr access =>
      have accounts := (request_responds valid h addr.toNat_lt time size access).accounts
      refine ⟨?_, accounts.valid⟩
      cases access with
      | read =>
          -- A read is not tallied, and need not be: it makes no block dirty.
          have dirty := accounts.dirty
          rw [accounts.reads rfl] at dirty
          exact dirty
      | write => exact accounts.dirty
  | setTemperature p t => exact ⟨rfl, rfl⟩
  | setHot p hot =>
      rcases c.perform_setHot p hot with ⟨stack, marked⟩
      rw [marked]
      exact ⟨rfl, rfl⟩
  | runEpoch => exact ⟨rfl, rfl⟩
  | resetCounts => exact absurd rfl keep

/-- What a run adds to the ledger. -/
theorem Sound.run_ledger (valid : s.Valid) (h : c.Sound s) {ops : List Operation}
    (keep : .resetCounts ∉ ops) :
    (c.run ops).counts.writebackBlocks + (c.run ops).dirtyBlocks =
        c.counts.writebackBlocks + c.dirtyBlocks + c.tally Operation.dirtied ops ∧
      (c.run ops).validBlocks + c.tally Operation.replaced ops +
          (c.run ops).counts.invalidatedBlocks + c.counts.loadedBlocks =
        c.validBlocks + c.counts.invalidatedBlocks + (c.run ops).counts.loadedBlocks := by
  induction ops generalizing c with
  | nil => exact ⟨rfl, rfl⟩
  | cons op ops ih =>
      rw [List.mem_cons, not_or] at keep
      rcases h.perform_ledger valid (Ne.symm keep.1) with ⟨dirty, valid₁⟩
      rcases ih (h.perform valid op) keep.2 with ⟨dirties, valids⟩
      -- The counters in between cancel, as each equation has them on one side.
      have step : c.run (op :: ops) = (c.perform op).run ops := rfl
      simp only [step, tally]
      exact ⟨by omega, by omega⟩

theorem ofKind_empty (kind : SetKind) (ways : Nat) (ageing : Ageing) (placement : Location) :
    (CacheSet.ofKind kind ways ageing placement).dirtyBlocks = 0 ∧
      (CacheSet.ofKind kind ways ageing placement).validBlocks = 0 := by
  have none_valid : ∀ n, (List.replicate n ({} : Line)).filter Line.isValid = [] := by
    intro n
    simp [Line.isValid]
  constructor
  · simp [CacheSet.dirtyBlocks, CacheSet.ofKind, BlockSet.count_empty]
  · rw [CacheSet.validBlocks, CacheSet.ofKind, none_valid]
    rfl

/-- An empty controller has no blocks. -/
theorem ofSettings_empty (s : Settings) :
    (ofSettings s).dirtyBlocks = 0 ∧ (ofSettings s).validBlocks = 0 := by
  have empty : ∀ set ∈ (ofSettings s).sets.toList, set.dirtyBlocks = 0 ∧ set.validBlocks = 0 := by
    intro set hset
    rcases List.mem_iff_getElem?.1 hset with ⟨i, hi⟩
    rw [Array.getElem?_toList] at hi
    rcases organise_sets s _ hi with ⟨unit, rfl⟩
    exact ofKind_empty ..
  have clean : (ofSettings s).dirtyBlocks = 0 := sum_map_eq_zero fun set hset => (empty set hset).1
  have vacant : (ofSettings s).validBlocks = 0 := sum_map_eq_zero fun set hset => (empty set hset).2
  exact ⟨clean, vacant⟩

end Controller

namespace Model

variable {m : Model} {s : Settings}

/-- At every point of a run that does not reset the counts, the ledger of blocks is balanced. -/
theorem run_keeps_ledger (start : ofSettings s = .ok m) (ops : List Operation)
    (keep : .resetCounts ∉ ops) :
    let c := (m.run ops).controller
    c.counts.writebackBlocks + c.dirtyBlocks =
        m.controller.tally Controller.Operation.dirtied (passed s ops) ∧
      c.counts.loadedBlocks =
        c.validBlocks + m.controller.tally Controller.Operation.replaced (passed s ops) +
          c.counts.invalidatedBlocks := by
  intro c
  rcases ofSettings_ok start with ⟨valid, rfl⟩
  have reached := (run_controller { settings := s, controller := .ofSettings s } ops).2
  -- The controller's counts are reset by an operation of that kind only.
  have kept : .resetCounts ∉ passed s ops := by
    intro hmem
    rcases List.mem_filterMap.1 hmem with ⟨op, hop, asked⟩
    cases op with
    | resetCounts => exact keep hop
    | _ => simp [Operation.passed] at asked
  rcases (Controller.ofSettings_sound valid).run_ledger valid kept with ⟨dirty, present⟩
  rcases Controller.ofSettings_empty s with ⟨clean, empty⟩
  have fresh : (Controller.ofSettings s).counts = {} := rfl
  rw [← reached, clean, fresh] at dirty
  rw [← reached, empty, fresh] at present
  exact ⟨by simpa using dirty, by simpa using present.symm⟩

/-- Two sets of pages in a stack of four banks. -/
def twoSets : Settings where
  stack := { vaults := 2, vaultSize := 65536, bankSize := 32768 }
  cache := { sets := 2 }

/-- Two blocks are dirty when their bank gets hot; the next request finds them written back. -/
theorem run_keeps_ledger_hot :
    let m : Model := { settings := twoSets, controller := .ofSettings twoSets }
    let ops : List Operation :=
      [.request ⟨0⟩ 64 0 .write, .request ⟨0⟩ 64 64 .write, .takeReading ⟨⟨0, 0⟩, ⟨90.0⟩⟩,
        .runEpoch, .request ⟨0⟩ 64 64 .read]
    ofSettings twoSets = .ok m ∧ .resetCounts ∉ ops ∧
      (m.run ops).controller.counts.writebackBlocks = 2 ∧
      (m.run ops).controller.counts.writebackBlocks + (m.run ops).controller.dirtyBlocks =
        m.controller.tally Controller.Operation.dirtied (passed twoSets ops) := by
  intro m ops
  have checked : twoSets.check = .ok () := by decide +kernel
  have start : ofSettings twoSets = .ok m := by
    rw [ofSettings, checked]
    rfl
  have kept : Operation.resetCounts ∉ ops := by simp [ops]
  have written : (m.run ops).controller.counts.writebackBlocks = 2 := by decide +kernel
  exact ⟨start, kept, written, (run_keeps_ledger start ops kept).1⟩

end Model

end StackedCache
