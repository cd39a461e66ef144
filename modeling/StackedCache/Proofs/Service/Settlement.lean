import StackedCache.Proofs.Relocation.Safety
import StackedCache.Proofs.Service.Arrival
import StackedCache.Proofs.Service.Effects
import StackedCache.Proofs.Service.Reach

/-!
# Settlements

The first request after a relocation settles what it has left to do, for all sets in one pass.  Here
the outcome of that pass is given in closed form: which sets are emptied, what is counted, and the
time of the slowest vault, in which the order of the sets plays no part.

Afterwards nothing is marked, and no request and no reading marks anything.
-/

namespace StackedCache

/-! ## Sums of times -/

namespace Time

theorem foldl_add_ps (spans : List Time) {t : Time} (bound : t.ps ≤ limit) :
    (spans.foldl (· + ·) t).ps = min (t.ps + (spans.map ps).sum) limit := by
  induction spans generalizing t with
  | nil => simp [bound]
  | cons span spans ih =>
      have capped : (t + span).ps ≤ limit := Nat.min_le_right _ _
      rw [List.foldl_cons, ih capped, add_ps, List.map_cons, List.sum_cons]
      omega

/-- A total is a sum that stops at the end of time. -/
theorem total_ps (spans : List Time) : (total spans).ps = min (spans.map ps).sum limit := by
  have sum := foldl_add_ps spans (t := zero) (Nat.zero_le _)
  simp only [zero, Nat.zero_add] at sum
  exact sum

/-- The order of spans does not matter. -/
theorem total_perm {spans spans' : List Time} (perm : spans.Perm spans') :
    total spans = total spans' := by
  have sums : (total spans).ps = (total spans').ps := by
    rw [total_ps, total_ps, (perm.map ps).sum_nat]
  cases ht : total spans
  cases ht' : total spans'
  rw [ht, ht'] at sums
  exact congrArg Time.mk sums

theorem longest_ps_le {spans : List Time} (bound : ∀ span ∈ spans, span.ps ≤ limit) :
    (longest spans).ps ≤ limit := by
  have all : ∀ (spans : List Time) (t : Time), t.ps ≤ limit → (∀ span ∈ spans, span.ps ≤ limit) →
      (spans.foldl later t).ps ≤ limit := by
    intro spans
    induction spans with
    | nil => exact fun t ht _ => ht
    | cons span spans ih =>
        intro t ht bound
        refine ih _ ?_ fun other mem => bound other (List.mem_cons_of_mem _ mem)
        unfold later
        split
        · exact bound span List.mem_cons_self
        · exact ht
  exact all spans zero (Nat.zero_le _) bound

theorem zero_add {t : Time} (bound : t.ps ≤ limit) : zero + t = t := by
  cases t
  exact congrArg Time.mk ((congrArg (min · limit) (Nat.zero_add _)).trans (Nat.min_eq_left bound))

theorem add_zero {t : Time} (bound : t.ps ≤ limit) : t + zero = t := by
  cases t
  exact congrArg Time.mk (Nat.min_eq_left bound)

end Time

/-- No vault works past the end of time. -/
def Toll.Bounded (t : Toll) : Prop :=
  ∀ (v : Nat) (time : Time), t.vaults[v]? = some time → time.ps ≤ Time.limit

namespace Controller

variable {c : Controller} {s : Settings} {set : CacheSet}

/-! ## Which sets are affected -/

/-- The bank of a set has lost its data. -/
def loses (c : Controller) (set : CacheSet) : Bool := !c.layer.contentValid set.placement.place

/-- The row of a set has moved, and its bank has kept its data. -/
def moves (c : Controller) (set : CacheSet) : Bool :=
  !c.loses set && c.layer.rowMigrated set.placement

theorem consequence_cases (c : Controller) (set : CacheSet) :
    (c.loses set = true ∧ c.moves set = false ∧ c.layer.consequence set.placement = .dropped) ∨
      (c.loses set = false ∧ c.moves set = true ∧ c.layer.consequence set.placement = .moved) ∨
      (c.loses set = false ∧ c.moves set = false ∧ c.layer.consequence set.placement = .none) := by
  unfold moves loses Layer.consequence
  cases c.layer.contentValid set.placement.place with
  | false => simp
  | true => cases c.layer.rowMigrated set.placement <;> simp

/-! ## The time of a settlement -/

/-- What the settlement of a set takes: its dirty bytes go to the memory behind the cache, or all its
bytes go twice over the link of the stack, out of a row and into another. -/
def settleTime (c : Controller) (set : CacheSet) : Time :=
  if c.loses set then c.memory.bandwidth.transferTime (set.dirtyBlocks * c.blockSize)
  else if c.moves set then c.stack.bandwidth.transferTime (2 * (set.validBlocks * c.blockSize))
  else .zero

/-- The times of the sets in a vault, one after the other. -/
def vaultTime (c : Controller) (vault : Nat) : Time :=
  .total ((c.sets.toList.filter fun set => set.placement.vault = vault).map c.settleTime)

theorem moveTime_eq (c : Controller) (blocks : Nat) :
    c.moveTime blocks = c.stack.bandwidth.transferTime (2 * (blocks * c.blockSize)) := by
  rw [moveTime, Nat.mul_comm]

theorem transferTime_zero (b : Bandwidth) : b.transferTime 0 = .zero := by
  simp [Bandwidth.transferTime]

theorem work_vaults (t : Toll) (vault v : Nat) (time : Time) :
    (t.work vault time).vaults[v]? =
      t.vaults[v]?.map fun old => if vault = v then old + time else old := by
  simp only [Toll.work, Array.getElem?_modify]
  by_cases here : vault = v
  · simp [here]
  · simp [here]

/-- Nothing to do takes no time, which bounded times do not notice. -/
theorem idle_vaults {t : Toll} (bounded : t.Bounded) (vault v : Nat) :
    t.vaults[v]? = t.vaults[v]?.map fun old => if vault = v then old + .zero else old := by
  cases found : t.vaults[v]? with
  | none => rfl
  | some old =>
      have same : old + .zero = old := Time.add_zero (bounded v old found)
      simp [same]

/-- A set keeps its own vault busy. -/
theorem add_vaults (coherent : set.Coherent) {t : Toll} (bounded : t.Bounded) (v : Nat) :
    (t.add c set).vaults[v]? =
      t.vaults[v]?.map fun old => if set.placement.vault = v then old + c.settleTime set else old := by
  unfold Toll.add settleTime
  rcases c.consequence_cases set with ⟨loses, moves, found⟩ | ⟨loses, moves, found⟩ |
    ⟨loses, moves, found⟩
  · rw [found, if_pos loses]
    simp only [Toll.addDropped, work_vaults, coherent.droppedDirty_eq, writebackTime]
  · rw [found, if_neg (by simp [loses]), if_pos moves]
    -- A moved row without blocks is passed over, and would take no time.
    unfold Toll.addMoved
    dsimp only
    split
    · rename_i empty
      rw [empty, Nat.zero_mul, Nat.mul_zero, transferTime_zero]
      exact idle_vaults bounded _ v
    · simp only [work_vaults, moveTime_eq]
  · rw [found, if_neg (by simp [loses]), if_neg (by simp [moves])]
    exact idle_vaults bounded _ v

theorem foldl_vaults (sets : List CacheSet) (coherent : ∀ set ∈ sets, set.Coherent) {t : Toll}
    (bounded : t.Bounded) (v : Nat) :
    (sets.foldl (Toll.add c) t).vaults[v]? = t.vaults[v]?.map fun old =>
      ((sets.filter fun set => set.placement.vault = v).map c.settleTime).foldl (· + ·) old := by
  induction sets generalizing t with
  | nil => simp
  | cons set sets ih =>
      have first := fun v => add_vaults (c := c) (coherent set List.mem_cons_self) bounded v
      have capped : (t.add c set).Bounded := by
        intro w time found
        rw [first w, Option.map_eq_some_iff] at found
        rcases found with ⟨old, there, rfl⟩
        split
        · exact Nat.min_le_right _ _
        · exact bounded w old there
      -- What the first set takes comes before what its vault takes for the others.
      rw [List.foldl_cons, ih (fun other mem => coherent other (List.mem_cons_of_mem _ mem)) capped,
        first v, Option.map_map]
      congr 1
      funext old
      by_cases here : set.placement.vault = v
      · simp [here]
      · simp [here]

/-- Each vault takes the times of its sets. -/
theorem toll_vaults (coherent : ∀ set ∈ c.sets.toList, set.Coherent) :
    c.toll.vaults.toList = (List.range c.stack.geometry.vaults).map c.vaultTime := by
  apply List.ext_getElem?
  intro v
  let start : Toll :=
    { vaults := Array.replicate c.stack.geometry.vaults Time.zero, counts := c.counts }
  have bounded : start.Bounded := by
    intro w time found
    rw [Array.getElem?_replicate] at found
    split at found
    · cases found
      exact Nat.zero_le _
    · cases found
  have folded := foldl_vaults (c := c) c.sets.toList coherent bounded v
  rw [Array.foldl_toList] at folded
  rw [Array.getElem?_toList, List.getElem?_map]
  apply folded.trans
  by_cases hv : v < c.stack.geometry.vaults
  · rw [List.getElem?_range hv, Array.getElem?_replicate, if_pos hv]
    rfl
  · rw [Array.getElem?_replicate, if_neg hv, List.getElem?_eq_none (by simpa using hv)]
    rfl

/-- A settlement lasts as long as the slowest vault. -/
theorem drawConsequences_time (coherent : ∀ set ∈ c.sets.toList, set.Coherent)
    (pending : c.layer.pending = true) :
    c.drawConsequences.1 =
      .longest ((List.range c.stack.geometry.vaults).map c.vaultTime) := by
  unfold drawConsequences
  rw [if_pos pending]
  exact congrArg Time.longest (toll_vaults coherent)

/-- The order in which the sets are settled does not matter. -/
theorem drawConsequences_perm {sets : Array CacheSet} (perm : sets.toList.Perm c.sets.toList)
    (coherent : ∀ set ∈ c.sets.toList, set.Coherent) :
    ({ c with sets := sets } : Controller).drawConsequences.1 = c.drawConsequences.1 := by
  have vaults : vaultTime { c with sets := sets } = c.vaultTime := by
    funext vault
    exact Time.total_perm ((perm.filter _).map _)
  cases pending : c.layer.pending with
  | false =>
      unfold drawConsequences
      simp only [pending]
      rfl
  | true =>
      have permuted := drawConsequences_time (c := { c with sets := sets })
        (fun set mem => coherent set (perm.mem_iff.1 mem)) pending
      rw [permuted, vaults, drawConsequences_time coherent pending]

/-! ## The counts of a settlement -/

/-- What is counted for one set. -/
theorem add_counts (coherent : set.Coherent) (t : Toll) :
    (t.add c set).counts.writebackBlocks = t.counts.writebackBlocks +
        (if c.loses set then set.dirtyBlocks else 0) ∧
      (t.add c set).counts.invalidatedBlocks = t.counts.invalidatedBlocks +
        (if c.loses set then set.validBlocks else 0) ∧
      (t.add c set).counts.migratedBlocks = t.counts.migratedBlocks +
        (if c.moves set then set.validBlocks else 0) := by
  unfold Toll.add
  rcases c.consequence_cases set with ⟨loses, moves, found⟩ | ⟨loses, moves, found⟩ |
    ⟨loses, moves, found⟩
  · simp only [found, loses, moves, Toll.addDropped, Toll.work, coherent.droppedDirty_eq]
    by_cases empty : set.validBlocks = 0
    · simp [empty]
    · simp [empty]
  · simp only [found, loses, moves, Toll.addMoved]
    by_cases empty : set.validBlocks = 0
    · simp [empty]
    · simp [empty, Toll.work]
  · rw [found, loses, moves]
    exact ⟨rfl, rfl, rfl⟩

theorem foldl_counts (sets : List CacheSet) (coherent : ∀ set ∈ sets, set.Coherent) (t : Toll) :
    (sets.foldl (Toll.add c) t).counts.writebackBlocks = t.counts.writebackBlocks +
        ((sets.filter c.loses).map CacheSet.dirtyBlocks).sum ∧
      (sets.foldl (Toll.add c) t).counts.invalidatedBlocks = t.counts.invalidatedBlocks +
        ((sets.filter c.loses).map CacheSet.validBlocks).sum ∧
      (sets.foldl (Toll.add c) t).counts.migratedBlocks = t.counts.migratedBlocks +
        ((sets.filter c.moves).map CacheSet.validBlocks).sum := by
  induction sets generalizing t with
  | nil => exact ⟨rfl, rfl, rfl⟩
  | cons set sets ih =>
      rcases add_counts (c := c) (coherent set List.mem_cons_self) t with ⟨dirty, valid, moved⟩
      obtain ⟨dirties, valids, moves⟩ :=
        ih (fun other mem => coherent other (List.mem_cons_of_mem _ mem)) (t.add c set)
      have split : ∀ (p : CacheSet → Bool) (blocks : CacheSet → Nat),
          (((set :: sets).filter p).map blocks).sum =
            (if p set then blocks set else 0) + ((sets.filter p).map blocks).sum := by
        intro p blocks
        rw [List.filter_cons]
        cases p set <;> simp
      rw [List.foldl_cons, dirties, valids, moves, dirty, valid, moved]
      simp only [split, Nat.add_assoc, and_self]

/-! ## Settlements -/

/-- What drawing the consequences of relocation makes of a controller, and the time it takes. -/
structure Settlement (c d : Controller) (time : Time) : Prop where
  size : d.sets.size = c.sets.size
  emptied : ∀ (i : Nat) (set : CacheSet), c.sets[i]? = some set → c.loses set = true →
    ∃ set', d.sets[i]? = some set' ∧ ∀ line ∈ set'.lines, line.isValid = false
  kept : ∀ (i : Nat) (set : CacheSet), c.sets[i]? = some set → c.loses set = false →
    d.sets[i]? = some set
  writebacks : d.counts.writebackBlocks =
    c.counts.writebackBlocks + ((c.sets.toList.filter c.loses).map CacheSet.dirtyBlocks).sum
  invalidated : d.counts.invalidatedBlocks =
    c.counts.invalidatedBlocks + ((c.sets.toList.filter c.loses).map CacheSet.validBlocks).sum
  migrated : d.counts.migratedBlocks =
    c.counts.migratedBlocks + ((c.sets.toList.filter c.moves).map CacheSet.validBlocks).sum
  /-- No mark is left. -/
  cleared : ∀ entry, entry ∈ d.layer.banks ∨ entry ∈ d.layer.vaults →
    entry.contentValid = true ∧ entry.migratedRows = []
  /-- The slowest vault decides. -/
  lasts : time = .longest ((List.range c.stack.geometry.vaults).map c.vaultTime)
  /-- Sets may be settled in any order. -/
  order : ∀ sets : Array CacheSet, sets.toList.Perm c.sets.toList →
    ({ c with sets := sets } : Controller).drawConsequences.1 = time

theorem drop_lines (set : CacheSet) : ∀ line ∈ set.drop.lines, line.isValid = false := by
  simp only [CacheSet.drop, List.mem_map]
  rintro _ ⟨line, _, rfl⟩
  unfold Line.drop
  cases valid : line.isValid with
  | false => exact valid
  | true => rfl

theorem settle_cleared (l : Layer) (entry : Entry)
    (h : entry ∈ l.settle.banks ∨ entry ∈ l.settle.vaults) :
    entry.contentValid = true ∧ entry.migratedRows = [] := by
  simp only [Layer.settle, Array.mem_map] at h
  rcases h with ⟨_, _, rfl⟩ | ⟨_, _, rfl⟩ <;> exact ⟨rfl, rfl⟩

/-- The consequences that are pending make a settlement. -/
theorem settlement (coherent : ∀ set ∈ c.sets.toList, set.Coherent)
    (pending : c.layer.pending = true) : c.Settlement c.settled c.drawConsequences.1 := by
  have counted := foldl_counts (c := c) c.sets.toList coherent
    { vaults := Array.replicate c.stack.geometry.vaults Time.zero, counts := c.counts }
  rw [Array.foldl_toList] at counted
  have counts : c.settled.counts = c.toll.counts := by
    unfold settled drawConsequences
    rw [if_pos pending]
  have sets : ∀ (i : Nat) (set : CacheSet), c.sets[i]? = some set →
      c.settled.sets[i]? = some (c.settleSet set) := by
    intro i set held
    rw [settled_sets, if_pos pending, Array.getElem?_map, held]
    rfl
  refine
    { size := ?_
      emptied := ?_
      kept := ?_
      writebacks := counts ▸ counted.1
      invalidated := counts ▸ counted.2.1
      migrated := counts ▸ counted.2.2
      cleared := ?_
      lasts := drawConsequences_time coherent pending
      order := fun _ perm => drawConsequences_perm perm coherent }
  · rw [settled_sets, if_pos pending, Array.size_map]
  · intro i set held lost
    refine ⟨set.drop, ?_, drop_lines set⟩
    rw [sets i set held, settleSet]
    rcases c.consequence_cases set with ⟨_, _, found⟩ | ⟨loses, _⟩ | ⟨loses, _⟩
    · rw [found]
    · rw [lost] at loses
      cases loses
    · rw [lost] at loses
      cases loses
  · intro i set held kept
    rw [sets i set held, settleSet]
    rcases c.consequence_cases set with ⟨loses, _⟩ | ⟨_, _, found⟩ | ⟨_, _, found⟩
    · rw [kept] at loses
      cases loses
    · rw [found]
    · rw [found]
  · rw [settled_layer, if_pos pending]
    exact settle_cleared c.layer

end Controller

/-! ## Marks -/

namespace Layer

variable {l l' : Layer}

theorem pending_iff : l.pending = true ↔ ∃ id entry, l.bank? id = some entry ∧ entry.pending = true := by
  unfold pending bank?
  rw [Array.any_eq_true]
  constructor
  · rintro ⟨i, hi, marked⟩
    exact ⟨i, _, Array.getElem?_eq_getElem hi, marked⟩
  · rintro ⟨i, entry, found, marked⟩
    rcases Array.getElem?_eq_some_iff.1 found with ⟨hi, rfl⟩
    exact ⟨i, hi, marked⟩

/-- Nothing is pending if nothing has been marked since. -/
theorem not_pending_of_bank? (clear : l.pending = false)
    (banks : ∀ id entry', l'.bank? id = some entry' →
      ∃ entry, l.bank? id = some entry ∧ entry'.pending = entry.pending) : l'.pending = false := by
  rw [← Bool.not_eq_true, pending_iff] at clear ⊢
  rintro ⟨id, entry', found, marked⟩
  rcases banks id entry' found with ⟨entry, there, same⟩
  exact clear ⟨id, entry, there, same ▸ marked⟩

/-- Only epochs leave consequences to draw. -/
theorem perform_not_pending (clear : l.pending = false) {op : Operation} (quiet : op ≠ .runEpoch) :
    (l.perform op).pending = false := by
  cases op with
  | setTemperature p t =>
      rcases perform_setTemperature l p t with ⟨ledger, stored⟩
      rw [stored]
      exact clear
  | recordAccess row requests =>
      rcases perform_recordAccess l row requests with refused | ⟨ledger, recorded⟩
      · rwa [refused]
      · rw [recorded]
        refine not_pending_of_bank? clear fun id entry' found => ?_
        have modified : ({ l with ledger := ledger }.modifyBank (l.geometry.bankId row.place)
            (·.recordAccess row.row requests)).bank? id = some entry' := found
        rw [bank?_modifyBank] at modified
        split at modified
        · rcases Option.map_eq_some_iff.1 modified with ⟨entry, there, rfl⟩
          exact ⟨entry, there, rfl⟩
        · exact ⟨entry', modified, rfl⟩
  | runEpoch => exact absurd rfl quiet
  | settle =>
      refine not_pending_of_bank? clear fun id entry' found => ?_
      have settled : l.settle.bank? id = some entry' := found
      rw [bank?_settle] at settled
      rcases Option.map_eq_some_iff.1 settled with ⟨entry, there, rfl⟩
      refine ⟨entry, there, ?_⟩
      have idle : ¬∃ id entry, l.bank? id = some entry ∧ entry.pending = true := by
        rw [← pending_iff, clear]
        exact Bool.false_ne_true
      rw [Bool.eq_false_iff.2 fun marked => idle ⟨id, entry, there, marked⟩]
      rfl
  | resetCounts =>
      refine not_pending_of_bank? clear fun id entry' found => ?_
      have reset : l.resetCounts.bank? id = some entry' := found
      rw [bank?_resetCounts] at reset
      rcases Option.map_eq_some_iff.1 reset with ⟨entry, there, rfl⟩
      exact ⟨entry, there, rfl⟩

theorem recordAccess_not_pending (l : Layer) (row : Location) (n : Nat) (l' : Layer)
    (clear : l.pending = false) (recorded : l.recordAccess row n = .ok l') : l'.pending = false := by
  rw [← perform_of_recorded recorded]
  exact perform_not_pending clear nofun

end Layer

/-! ## Requests -/

namespace Service

/-- Time passes, as far as it goes. -/
def Lasts (s s' : Service) : Prop :=
  s.elapsed.ps ≤ Time.limit → s.elapsed ≤ s'.elapsed ∧ s'.elapsed.ps ≤ Time.limit

theorem lasts_covering : Covering Lasts where
  refl := fun _ bounded => ⟨Nat.le_refl _, bounded⟩
  trans := fun first second bounded =>
    ⟨Nat.le_trans (first bounded).1 (second (first bounded).2).1, (second (first bounded).2).2⟩
  charge := fun s t bounded => by
    have later : s.elapsed ≤ s.elapsed + t :=
      Time.le_iff.2 (Nat.le_min.2 ⟨Nat.le_add_right _ _, bounded⟩)
    exact ⟨later, Nat.min_le_right _ _⟩
  sets := fun _ _ bounded => ⟨Nat.le_refl _, bounded⟩
  organisation := fun _ _ bounded => ⟨Nat.le_refl _, bounded⟩
  pageTable := fun _ _ bounded => ⟨Nat.le_refl _, bounded⟩
  stack := fun _ _ bounded => ⟨Nat.le_refl _, bounded⟩
  layer := fun _ _ _ _ _ bounded => ⟨Nat.le_refl _, bounded⟩

end Service

namespace Controller

variable {c : Controller} {s : Settings}

theorem drawConsequences_of_clear (clear : c.layer.pending = false) :
    c.drawConsequences = (.zero, c) := by
  unfold drawConsequences
  simp only [clear, Bool.false_eq_true, if_false]

theorem settled_not_pending (c : Controller) : c.settled.layer.pending = false := by
  rw [settled_layer]
  cases pending : c.layer.pending with
  | false => exact pending
  | true =>
      simp only [if_true]
      rw [← Bool.not_eq_true, Layer.pending_iff]
      rintro ⟨id, entry, found, marked⟩
      rcases settle_cleared c.layer entry (.inl (Array.mem_of_getElem? found)) with ⟨valid, rows⟩
      simp [Entry.pending, valid, rows] at marked

/-- A settlement does not last past the end of time. -/
theorem drawConsequences_bounded (coherent : ∀ set ∈ c.sets.toList, set.Coherent) :
    c.drawConsequences.1.ps ≤ Time.limit := by
  cases pending : c.layer.pending with
  | false =>
      rw [drawConsequences_of_clear pending]
      exact Nat.zero_le _
  | true =>
      rw [drawConsequences_time coherent pending]
      refine Time.longest_ps_le fun span mem => ?_
      rcases List.mem_map.1 mem with ⟨vault, _, rfl⟩
      rw [vaultTime, Time.total_ps]
      exact Nat.min_le_right _ _

/-- Every request first waits for what relocation has left to do. -/
theorem request_proceeds (coherent : ∀ set ∈ c.sets.toList, set.Coherent) (time : Time)
    (size addr : Nat) (access : Access) :
    c.request time size addr access =
      (c.arrived time access).settled.proceed (c.arrived time access).drawConsequences.1
        (c.order time).1 size addr access := by
  rcases c.arrived_eq time access with ⟨counts, lastTime, arrived, _⟩
  have bounded : (c.arrived time access).drawConsequences.1.ps ≤ Time.limit := by
    apply drawConsequences_bounded
    rw [arrived]
    exact coherent
  -- The wait is added to an elapsed time of zero, which changes it only past the end of time.
  have settled : Service.settle ⟨c.arrived time access, .zero⟩ =
      .ok ⟨⟩ ⟨(c.arrived time access).settled, (c.arrived time access).drawConsequences.1⟩ := by
    show EStateM.Result.ok PUnit.unit
      (⟨_, .zero + (c.arrived time access).drawConsequences.1⟩ : Service) = _
    rw [Time.zero_add bounded]
    rfl
  rw [request_eq, Service.serve_eq, bind_of_ok settled]
  rfl

/-- Nothing is left to settle after a request, even if it fails. -/
theorem request_not_pending (coherent : ∀ set ∈ c.sets.toList, set.Coherent) (time : Time)
    (size addr : Nat) (access : Access) :
    (c.request time size addr access).2.layer.pending = false := by
  rw [request_proceeds coherent]
  exact proceed_keeps Layer.recordAccess_not_pending (settled_not_pending _) _ _ _ _ _

/-- The request takes at least as long as it has waited. -/
theorem le_latency_proceed {d : Controller} {waited : Time} (bounded : waited.ps ≤ Time.limit)
    (arrival : Time) (size addr : Nat) (access : Access) :
    waited ≤ (d.proceed waited arrival size addr access).1.latency :=
  (proceed_leads (Service.within_serveSettled Service.lasts_covering
    (fun _ _ bounded => ⟨Nat.le_refl _, bounded⟩) _ _ _ _) bounded).1

/-- It makes no difference that the request is counted before the settlement. -/
theorem settlement_arrived (coherent : ∀ set ∈ c.sets.toList, set.Coherent)
    (pending : c.layer.pending = true) (time : Time) (access : Access) :
    c.Settlement (c.arrived time access).settled
        (.longest ((List.range c.stack.geometry.vaults).map c.vaultTime)) ∧
      (c.arrived time access).drawConsequences.1 =
        .longest ((List.range c.stack.geometry.vaults).map c.vaultTime) := by
  rcases c.arrived_eq time access with ⟨counts, lastTime, arrived, writebacks, _, invalidated⟩
  have migrated : (c.arrived time access).counts.migratedBlocks = c.counts.migratedBlocks := by
    unfold Controller.arrived order countRequest
    split <;> cases access <;> rfl
  rw [arrived] at migrated ⊢
  let c₁ : Controller := { c with counts := counts, lastTime := lastTime }
  have drawn := settlement (c := c₁) coherent pending
  have order : ∀ sets : Array CacheSet, sets.toList.Perm c.sets.toList →
      ({ c with sets := sets } : Controller).drawConsequences.1 =
        .longest ((List.range c.stack.geometry.vaults).map c.vaultTime) := by
    intro sets perm
    rw [drawConsequences_perm perm coherent, drawConsequences_time coherent pending]
  exact ⟨⟨drawn.size, drawn.emptied, drawn.kept, writebacks ▸ drawn.writebacks,
    invalidated ▸ drawn.invalidated, migrated ▸ drawn.migrated, drawn.cleared, rfl, order⟩,
    drawn.lasts⟩

/-! ## Runs -/

theorem Sound.coherent (h : c.Sound s) : ∀ set ∈ c.sets.toList, set.Coherent :=
  fun _ mem => (h.stored.mem mem).coherent

/-- Only epochs leave something to settle. -/
theorem Sound.perform_not_pending (h : c.Sound s) (clear : c.layer.pending = false)
    {op : Operation} (quiet : op ≠ .runEpoch) : (c.perform op).layer.pending = false := by
  cases op with
  | request time size addr access => exact request_not_pending h.coherent time size addr.toNat access
  | setTemperature p t => exact Layer.perform_not_pending clear (by simp)
  | setHot p hot =>
      rcases c.perform_setHot p hot with ⟨stack, marked⟩
      rw [marked]
      exact clear
  | runEpoch => exact absurd rfl quiet
  | resetCounts =>
      have other : Layer.Operation.resetCounts ≠ .runEpoch := by simp
      exact Layer.perform_not_pending clear other

theorem Sound.run_not_pending (valid : s.Valid) (h : c.Sound s) (clear : c.layer.pending = false)
    {ops : List Operation} (quiet : .runEpoch ∉ ops) : (c.run ops).layer.pending = false := by
  induction ops generalizing c with
  | nil => exact clear
  | cons op ops ih =>
      have now : op ≠ .runEpoch := fun eq => quiet (eq ▸ List.mem_cons_self)
      exact ih (h.perform valid op) (h.perform_not_pending clear now) fun mem =>
        quiet (List.mem_cons_of_mem _ mem)

/-- In every state that operations lead to, a request settles first what relocation has left to do,
and waits for the slowest vault; the requests after it do not wait, until the next epoch. -/
theorem run_settles (accepted : s.check = .ok ()) (ops : List Operation)
    (pending : ((ofSettings s).run ops).layer.pending = true) (time : Time) (size : Nat)
    (addr : UInt64) (access : Access) :
    let c := (ofSettings s).run ops
    let d := (c.arrived time access).settled
    let toll := Time.longest ((List.range c.stack.geometry.vaults).map c.vaultTime)
    let r := c.request time size addr.toNat access
    c.Settlement d toll ∧ r = d.proceed toll (c.order time).1 size addr.toNat access ∧
      toll ≤ r.1.latency ∧
      ∀ more : List Operation, .runEpoch ∉ more →
        ∀ (time : Time) (size : Nat) (addr : UInt64) (access : Access),
          let c' := r.2.run more
          c'.request time size addr.toNat access =
            (c'.arrived time access).proceed .zero (c'.order time).1 size addr.toNat access := by
  intro c d toll r
  have valid := Settings.check_eq_ok_iff.1 accepted
  have sound : c.Sound s := (ofSettings_sound valid).run valid ops
  rcases settlement_arrived sound.coherent pending time access with ⟨settlement, waits⟩
  have proceeds : r = d.proceed toll (c.order time).1 size addr.toNat access := by
    have answered := request_proceeds sound.coherent time size addr.toNat access
    rwa [waits] at answered
  have bounded : toll.ps ≤ Time.limit := by
    have drawn := drawConsequences_bounded sound.coherent
    rwa [drawConsequences_time sound.coherent pending] at drawn
  refine ⟨settlement, proceeds, ?_, ?_⟩
  · rw [proceeds]
    exact le_latency_proceed bounded _ _ _ _
  · intro more quiet time' size' addr' access' c'
    have first : r.2.Sound s := sound.perform valid (.request time size addr access)
    have clear : c'.layer.pending = false :=
      first.run_not_pending valid (request_not_pending sound.coherent time size addr.toNat access)
        quiet
    -- The request is counted before the consequences are drawn, and there are none.
    have idle : (c'.arrived time' access').drawConsequences = (.zero, c'.arrived time' access') := by
      rcases c'.arrived_eq time' access' with ⟨counts, lastTime, arrived, _⟩
      apply drawConsequences_of_clear
      rw [arrived]
      exact clear
    have answered := request_proceeds (first.run valid more).coherent time' size' addr'.toNat access'
    unfold Controller.settled at answered
    rwa [idle] at answered

/-- Two banks change place in the first of two epochs; of three blocks lost, two are dirty, and their
128 bytes go at 7.6 bytes a nanosecond.  Where the row changes place instead, its three blocks are
kept, and their 192 bytes go twice, at 16 bytes a nanosecond. -/
theorem run_settles_relocated :
    let blocks : List Operation :=
      [.request ⟨0⟩ 64 0 .write, .request ⟨0⟩ 64 4096 .write, .request ⟨0⟩ 64 8192 .read,
        .setTemperature ⟨0, 0⟩ ⟨90.0⟩, .runEpoch]
    let addr : UInt64 := 0
    let time : Time := ⟨1000000⟩
    (let s := Settings.twoBanks .swap
      let ops := blocks ++ [.runEpoch]
      let c := (ofSettings s).run ops
      let d := (c.arrived time .read).settled
      s.check = .ok () ∧ c.layer.pending = true ∧ d.counts.writebackBlocks = 2 ∧
        d.counts.invalidatedBlocks = 3 ∧ d.counts.migratedBlocks = 0 ∧
        c.request time 64 addr.toNat .read =
          d.proceed ⟨17000⟩ (c.order time).1 64 addr.toNat .read) ∧
      let s := Settings.twoBanks .hybrid
      let c := (ofSettings s).run blocks
      let d := (c.arrived time .read).settled
      s.check = .ok () ∧ c.layer.pending = true ∧ d.counts.writebackBlocks = 0 ∧
        d.counts.invalidatedBlocks = 0 ∧ d.counts.migratedBlocks = 3 ∧
        c.request time 64 addr.toNat .read =
          d.proceed ⟨24000⟩ (c.order time).1 64 addr.toNat .read := by
  intro blocks addr time
  constructor
  · intro s ops c d
    have valid : s.check = .ok () := by decide +kernel
    have pending : c.layer.pending = true := by decide +kernel
    have counted : c.counts.writebackBlocks +
          ((c.sets.toList.filter c.loses).map CacheSet.dirtyBlocks).sum = 2 ∧
        c.counts.invalidatedBlocks +
          ((c.sets.toList.filter c.loses).map CacheSet.validBlocks).sum = 3 ∧
        c.counts.migratedBlocks +
          ((c.sets.toList.filter c.moves).map CacheSet.validBlocks).sum = 0 := by decide +kernel
    have toll : Time.longest ((List.range c.stack.geometry.vaults).map c.vaultTime) = ⟨17000⟩ := by
      decide +kernel
    have settles := run_settles valid ops pending time 64 addr .read
    -- From here on the run is a controller like any other, and is evaluated no more.
    have reached : (ofSettings s).run ops = c := rfl
    rw [reached] at settles
    clear_value c
    obtain ⟨settlement, proceeds, _⟩ := settles
    rw [toll] at proceeds
    exact ⟨valid, pending, settlement.writebacks.trans counted.1,
      settlement.invalidated.trans counted.2.1, settlement.migrated.trans counted.2.2, proceeds⟩
  · intro s c d
    have valid : s.check = .ok () := by decide +kernel
    have pending : c.layer.pending = true := by decide +kernel
    have counted : c.counts.writebackBlocks +
          ((c.sets.toList.filter c.loses).map CacheSet.dirtyBlocks).sum = 0 ∧
        c.counts.invalidatedBlocks +
          ((c.sets.toList.filter c.loses).map CacheSet.validBlocks).sum = 0 ∧
        c.counts.migratedBlocks +
          ((c.sets.toList.filter c.moves).map CacheSet.validBlocks).sum = 3 := by decide +kernel
    have toll : Time.longest ((List.range c.stack.geometry.vaults).map c.vaultTime) = ⟨24000⟩ := by
      decide +kernel
    have settles := run_settles valid blocks pending time 64 addr .read
    have reached : (ofSettings s).run blocks = c := rfl
    rw [reached] at settles
    clear_value c
    obtain ⟨settlement, proceeds, _⟩ := settles
    rw [toll] at proceeds
    exact ⟨valid, pending, settlement.writebacks.trans counted.1,
      settlement.invalidated.trans counted.2.1, settlement.migrated.trans counted.2.2, proceeds⟩

end Controller

end StackedCache
