import StackedCache.Proofs.Service.Request

/-!
# Runs of the controller

An empty controller with valid settings is sound, and every operation keeps it so: `run_sound`.
Hence all that is proved of requests to sound controllers holds in every state that operations lead
to.
-/

namespace StackedCache

namespace Controller

variable {c : Controller} {s : Settings}

/-! ## The empty controller -/

/-- The unit of the stack a set is stored in, and its kind. -/
theorem organise_sets (s : Settings) (g : Geometry) {i : Nat} {set : CacheSet}
    (h : (organise s g).2.2[i]? = some set) :
    ∃ unit, set = .ofKind (if s.cache.design = .alloy then .directBlock else .page)
      s.cache.associativity.toNat s.cache.ageing (g.locateRow unit) := by
  unfold organise at h
  cases design : s.cache.design with
  | alloy =>
      simp only [design, buildSets, Array.getElem?_map, Option.map_eq_some_iff] at h
      rcases h with ⟨n, _, rfl⟩
      exact ⟨_, rfl⟩
  | unison =>
      simp only [design, buildSets, Array.getElem?_map, Option.map_eq_some_iff] at h
      rcases h with ⟨n, _, rfl⟩
      exact ⟨_, rfl⟩
  -- Segments are not kept in sets.
  | constant =>
      simp [design] at h

theorem organise_size (s : Settings) (g : Geometry) (design : s.cache.design ≠ .constant) :
    (organise s g).2.2.size = s.cache.sets.toNat := by
  dsimp only [organise]
  cases hd : s.cache.design with
  | alloy => simp [buildSets]
  | unison => simp [buildSets]
  | constant => exact absurd hd design

theorem organise_design (s : Settings) (g : Geometry) :
    (organise s g).1.design = s.cache.design := by
  dsimp only [organise]
  cases s.cache.design <;> rfl

theorem organise_line (s : Settings) (g : Geometry) : (organise s g).2.1 = s.cache.lineBytes := by
  dsimp only [organise, CacheSettings.lineBytes]
  cases s.cache.design <;> rfl

theorem ofSettings_sound (valid : s.Valid) : (ofSettings s).Sound s where
  layer := Layer.ofSettings_sound s.relocation (.ofSettings s.stack)
  geometry := rfl
  stack := fun fits => Stack.ofSettings_ready fits.banksPerVault
    (Nat.pos_of_isPowerOfTwo (valid.stack.regular fits).rows)
  design := organise_design s _
  splitter := congrArg (Splitter.ofSizes · s.cache.sets.toNat) (organise_line s _)
  blockSize := rfl
  pageTable := by
    intro t ht
    -- A page table, if there is one, starts without frames.
    simp only [ofSettings] at ht
    split at ht
    · cases ht
      exact PageTable.compact_empty
    · cases ht
  stored := by
    refine ⟨organise_size s _, ?_⟩
    intro i set hset
    rcases organise_sets s _ hset with ⟨unit, rfl⟩
    exact ⟨CacheSet.ofKind_coherent .., rfl, fun fits =>
      Geometry.locateRow_held (valid.stack.regular fits) unit⟩

/-! ## Operations -/

/-- An operation of the controller.  Addresses are words. -/
inductive Operation where
  | request (time : Time) (size : Nat) (addr : UInt64) (access : Access)
  | setTemperature (p : BankPlace) (t : Celsius)
  | setHot (p : BankPlace) (hot : Bool)
  | runEpoch
  | resetCounts

/-- Performs an operation; a refused one leaves the controller alone. -/
def perform (c : Controller) : Operation → Controller
  | .request time size addr access => (c.request time size addr.toNat access).2
  | .setTemperature p t => c.modifyLayer (·.perform (.setTemperature p t))
  | .setHot p hot =>
      match c.setHot p hot with
      | .ok c' => c'
      | .error _ => c
  | .runEpoch => c.modifyLayer (·.perform .runEpoch)
  | .resetCounts => c.resetCounts

/-- Performs operations in order. -/
def run (c : Controller) (ops : List Operation) : Controller := ops.foldl perform c

theorem setHot_ok {c' : Controller} {p : BankPlace} {hot : Bool} (h : c.setHot p hot = .ok c') :
    ∃ u stack, Stack.setHot p hot c.stack = .ok u stack ∧ c' = { c with stack := stack } := by
  unfold setHot at h
  split at h
  · rename_i u stack marked
    cases h
    exact ⟨u, stack, marked, rfl⟩
  · cases h

/-- Marking a bank changes the stack only, if anything. -/
theorem perform_setHot (c : Controller) (p : BankPlace) (hot : Bool) :
    ∃ stack, c.perform (.setHot p hot) = { c with stack := stack } := by
  simp only [perform]
  cases marked : c.setHot p hot with
  | error _ => exact ⟨c.stack, rfl⟩
  | ok c' =>
      rcases setHot_ok marked with ⟨u, stack, _, rfl⟩
      exact ⟨stack, rfl⟩

theorem Sound.resetCounts (h : c.Sound s) : c.resetCounts.Sound s := by
  have layer := h.toFramed.perform .resetCounts
  refine ⟨⟨layer.layer, layer.geometry, fun fits => (h.stack fits).resetActivity, ?_, h.splitter,
    h.blockSize, h.pageTable⟩, h.stored.map ?_⟩
  -- Only pages have counts of their own to reset, and they remain pages.
  · rw [← h.design]
    simp only [Controller.resetCounts]
    cases c.organisation <;> rfl
  · intro set fits
    exact ⟨fits.coherent, fits.kind, fits.placed⟩

/-- Every operation keeps the controller sound. -/
theorem Sound.perform (valid : s.Valid) (h : c.Sound s) (op : Operation) :
    (c.perform op).Sound s := by
  cases op with
  | request time size addr access =>
      exact (request_responds valid h addr.toNat_lt time size access).sound
  | setTemperature p t => exact ⟨h.toFramed.perform (.setTemperature p t), h.stored⟩
  | setHot p hot =>
      simp only [Controller.perform]
      cases marked : c.setHot p hot with
      | error _ => exact h
      | ok c' =>
          rcases setHot_ok marked with ⟨u, stack, done, rfl⟩
          exact ⟨h.toFramed.withStack fun fits => (h.stack fits).setHot done, h.stored⟩
  | runEpoch => exact ⟨h.toFramed.perform .runEpoch, h.stored⟩
  | resetCounts => exact h.resetCounts

theorem Sound.run (valid : s.Valid) (h : c.Sound s) (ops : List Operation) :
    (c.run ops).Sound s := by
  induction ops generalizing c with
  | nil => exact h
  | cons op ops ih => exact ih (h.perform valid op)

end Controller

end StackedCache
