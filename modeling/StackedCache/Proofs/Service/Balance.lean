import StackedCache.Proofs.Residency.Exchange
import StackedCache.Proofs.Service.Steps

/-!
# The balance of blocks

Blocks that become dirty are dirty until they are written back, and blocks that are loaded are
present until their line is replaced.  `Balanced` says so of a request, or a part of one, by the
counters and the sets before and after it.
-/

namespace StackedCache

/-- A set of a cache with the given settings. -/
structure CacheSet.Fits (s : Settings) (set : CacheSet) : Prop where
  coherent : set.Coherent
  kind : set.kind = if s.cache.design = .alloy then .directBlock else .page
  placed : Controller.HasRow s set.placement

theorem CacheSet.Exchange.fits {s : Settings} {access : Access} {before after : CacheSet}
    {loaded writeback : Nat} (h : CacheSet.Exchange access before after loaded writeback)
    (fits : before.Fits s) : after.Fits s :=
  ⟨h.coherent, h.kind.trans fits.kind, h.placement ▸ fits.placed⟩

namespace Controller

variable {c c' c'' : Controller} {s : Settings} {access : Access} {i : Nat} {set set' : CacheSet}

/-- The sets of a cache with the given settings. -/
structure Stored (s : Settings) (sets : Array CacheSet) : Prop where
  size : s.cache.design ≠ .constant → sets.size = s.cache.sets.toNat
  fits : ∀ (i : Nat) (set : CacheSet), sets[i]? = some set → set.Fits s

theorem Stored.withSet {sets : Array CacheSet} (h : Stored s sets) (fits : set.Fits s) :
    Stored s (sets.setIfInBounds i set) := by
  refine ⟨?_, forall_setIfInBounds h.fits fits⟩
  intro design
  exact (Array.size_setIfInBounds ..).trans (h.size design)

theorem Stored.map {sets : Array CacheSet} (h : Stored s sets) {f : CacheSet → CacheSet}
    (hf : ∀ set : CacheSet, set.Fits s → (f set).Fits s) : Stored s (sets.map f) := by
  refine ⟨?_, forall_map h.fits hf⟩
  intro design
  exact Array.size_map.trans (h.size design)

/-- A controller with the given settings, between requests. -/
structure Sound (s : Settings) (c : Controller) : Prop extends c.Framed s where
  stored : Stored s c.sets

/-! ## Counting blocks -/

/-- Dirty blocks of all sets. -/
def dirtyBlocks (c : Controller) : Nat := (c.sets.toList.map CacheSet.dirtyBlocks).sum

/-- Blocks present in all sets. -/
def validBlocks (c : Controller) : Nat := (c.sets.toList.map CacheSet.validBlocks).sum

/-- The blocks that have become dirty from `before` to `after`. -/
def dirtied (before after : Controller) : Nat :=
  ((before.sets.toList.zip after.sets.toList).map fun p => p.1.dirtied p.2).sum

/-- The blocks that were present in lines that are gone. -/
def replaced (before after : Controller) : Nat :=
  ((before.sets.toList.zip after.sets.toList).map fun p => p.1.replaced p.2).sum

theorem sum_map_set {α : Type} {xs : List α} {i : Nat} {x : α} (f : α → Nat) (y : α)
    (h : xs[i]? = some x) : ((xs.set i y).map f).sum + f x = (xs.map f).sum + f y := by
  rw [List.set_eq_modify]
  exact sum_map_modify f (fun _ => y) h

/-- A comparison of lists that differ in one place. -/
theorem sum_zip_set {α : Type} {xs : List α} {i : Nat} {x : α} (f : α → α → Nat) (y : α)
    (h : xs[i]? = some x) (same : ∀ z ∈ xs, f z z = 0) :
    ((xs.zip (xs.set i y)).map fun p => f p.1 p.2).sum = f x y := by
  rcases List.getElem?_eq_some_iff.1 h with ⟨hlt, hx⟩
  have changed : (xs.zip (xs.set i y))[i]? = some (x, y) := by
    rw [List.getElem?_zip_eq_some]
    exact ⟨h, List.getElem?_set_self hlt⟩
  -- Elsewhere each element is compared with itself.
  refine sum_map_single (fun p : α × α => f p.1 p.2) changed ?_
  intro j p hj hp
  rw [List.getElem?_zip_eq_some, List.getElem?_set_ne (Ne.symm hj)] at hp
  have both : p.1 = p.2 := Option.some.inj (hp.1.symm.trans hp.2)
  rw [both]
  exact same p.2 (List.mem_of_getElem? hp.2)

/-- A comparison of a list with itself. -/
theorem sum_zip_self {α : Type} {xs : List α} (f : α → α → Nat) (same : ∀ z ∈ xs, f z z = 0) :
    ((xs.zip xs).map fun p => f p.1 p.2).sum = 0 := by
  apply sum_map_eq_zero
  intro p hp
  rcases List.mem_iff_getElem?.1 hp with ⟨j, hj⟩
  rw [List.getElem?_zip_eq_some] at hj
  have both : p.1 = p.2 := Option.some.inj (hj.1.symm.trans hj.2)
  rw [both]
  exact same p.2 (List.mem_of_getElem? hj.2)

/-! ## Balance -/

/-- The counters of blocks account for what has happened to the sets. -/
structure Balanced (access : Access) (c c' : Controller) : Prop where
  dirty : c'.counts.writebackBlocks + c'.dirtyBlocks =
    c.counts.writebackBlocks + c.dirtyBlocks + c.dirtied c'
  /-- Reads make no block dirty. -/
  reads : access = .read → c.dirtied c' = 0
  valid : c'.validBlocks + c.replaced c' + c.counts.loadedBlocks =
    c.validBlocks + c'.counts.loadedBlocks
  invalidated : c'.counts.invalidatedBlocks = c.counts.invalidatedBlocks

theorem Stored.mem {sets : Array CacheSet} (h : Stored s sets) (hset : set ∈ sets.toList) :
    set.Fits s := by
  rcases List.mem_iff_getElem?.1 hset with ⟨j, hj⟩
  exact h.fits j set (by rwa [Array.getElem?_toList] at hj)

theorem Beside.dirtyBlocks (h : c.Beside c') : c'.dirtyBlocks = c.dirtyBlocks := by
  rw [Controller.dirtyBlocks, h.sets, Controller.dirtyBlocks]

theorem Beside.validBlocks (h : c.Beside c') : c'.validBlocks = c.validBlocks := by
  rw [Controller.validBlocks, h.sets, Controller.validBlocks]

/-- What happens beside the sets is balanced. -/
theorem Balanced.of_beside (h : Stored s c.sets) (beside : c.Beside c') : c.Balanced access c' := by
  have dirtied : c.dirtied c' = 0 := by
    rw [Controller.dirtied, beside.sets]
    exact sum_zip_self CacheSet.dirtied fun set hset => (h.mem hset).coherent.dirtied_self rfl
  have replaced : c.replaced c' = 0 := by
    rw [Controller.replaced, beside.sets]
    exact sum_zip_self CacheSet.replaced fun set hset => CacheSet.replaced_self rfl
  refine ⟨?_, fun _ => dirtied, ?_, beside.invalidatedBlocks⟩
  · rw [dirtied, beside.writebackBlocks, beside.dirtyBlocks, Nat.add_zero]
  · rw [replaced, beside.loadedBlocks, beside.validBlocks, Nat.add_zero]

/-- The exchange of some blocks of one set is balanced by the counters. -/
theorem Balanced.of_exchange {loaded writeback : Nat} (h : Stored s c.sets)
    (hset : c.sets[i]? = some set) (exchange : set.Exchange access set' loaded writeback)
    (sets : c'.sets = c.sets.setIfInBounds i set')
    (writebacks : c'.counts.writebackBlocks = c.counts.writebackBlocks + writeback)
    (loads : c'.counts.loadedBlocks = c.counts.loadedBlocks + loaded)
    (invalidated : c'.counts.invalidatedBlocks = c.counts.invalidatedBlocks) :
    c.Balanced access c' := by
  have list : c'.sets.toList = c.sets.toList.set i set' := by
    rw [sets, Array.toList_setIfInBounds]
  have found : c.sets.toList[i]? = some set := by rwa [Array.getElem?_toList]
  have dirtied : c.dirtied c' = set.dirtied set' := by
    rw [Controller.dirtied, list]
    exact sum_zip_set CacheSet.dirtied set' found fun other hother =>
      (h.mem hother).coherent.dirtied_self rfl
  have replaced : c.replaced c' = set.replaced set' := by
    rw [Controller.replaced, list]
    exact sum_zip_set CacheSet.replaced set' found fun _ _ => CacheSet.replaced_self rfl
  -- All totals differ in one summand, for which the exchange has the equations.
  have dirtySum := sum_map_set CacheSet.dirtyBlocks set' found
  have validSum := sum_map_set CacheSet.validBlocks set' found
  have dirty := exchange.dirty
  have valid := exchange.valid
  refine ⟨?_, fun hread => dirtied.trans (exchange.reads hread), ?_, invalidated⟩
  · rw [dirtied, writebacks, dirtyBlocks, dirtyBlocks, list]
    omega
  · rw [replaced, loads, validBlocks, validBlocks, list]
    omega

theorem dirtied_congr {b b' : Controller} (before : b'.sets = b.sets) (after : c'.sets = c.sets) :
    b'.dirtied c' = b.dirtied c := by
  rw [Controller.dirtied, before, after, Controller.dirtied]

theorem replaced_congr {b b' : Controller} (before : b'.sets = b.sets) (after : c'.sets = c.sets) :
    b'.replaced c' = b.replaced c := by
  rw [Controller.replaced, before, after, Controller.replaced]

/-- A balance stays while things happen beside the sets. -/
theorem Balanced.beside (h : c.Balanced access c') (beside : c'.Beside c'') :
    c.Balanced access c'' := by
  have dirtied : c.dirtied c'' = c.dirtied c' := dirtied_congr rfl beside.sets
  have replaced : c.replaced c'' = c.replaced c' := replaced_congr rfl beside.sets
  refine ⟨?_, fun hread => dirtied.trans (h.reads hread), ?_,
    beside.invalidatedBlocks.trans h.invalidated⟩
  · rw [dirtied, beside.writebackBlocks, beside.dirtyBlocks]
    exact h.dirty
  · rw [replaced, beside.loadedBlocks, beside.validBlocks]
    exact h.valid

theorem Balanced.of_beside_left (beside : c.Beside c') (h : c'.Balanced access c'') :
    c.Balanced access c'' := by
  have dirtied : c.dirtied c'' = c'.dirtied c'' := dirtied_congr beside.sets.symm rfl
  have replaced : c.replaced c'' = c'.replaced c'' := replaced_congr beside.sets.symm rfl
  refine ⟨?_, fun hread => dirtied.trans (h.reads hread), ?_,
    h.invalidated.trans beside.invalidatedBlocks⟩
  · rw [dirtied, ← beside.writebackBlocks, ← beside.dirtyBlocks]
    exact h.dirty
  · rw [replaced, ← beside.loadedBlocks, ← beside.validBlocks]
    exact h.valid

end Controller

end StackedCache
