import StackedCache.Proofs.Service.Settlement
import StackedCache.Proofs.Service.Unseen

/-!
# Late requests

A request that is earlier than one before it is served as if it had come with the latest before it.
So it makes no difference whether it comes late or in time, except for the count of late requests:
`Behind.request`.

The controllers that receive the request late and in time differ by that count from then on, which
is nothing that requests see.
-/

namespace StackedCache

/-- The counters with more late requests. -/
def CacheCounts.countLate (n : CacheCounts) (late : Nat) : CacheCounts :=
  { n with outOfOrder := n.outOfOrder + late }

theorem CacheCounts.countLate_countLate (n : CacheCounts) (late more : Nat) :
    (n.countLate late).countLate more = n.countLate (late + more) := by
  simp only [countLate, Nat.add_assoc]

/-- Late requests may be counted before or after anything else. -/
theorem CacheCounts.Plain.countLate {f : CacheCounts → CacheCounts} (plain : Plain f)
    (n : CacheCounts) (late : Nat) : f (n.countLate late) = (f n).countLate late := by
  have here : f n = { f n with outOfOrder := n.outOfOrder } := plain n n.outOfOrder
  have same : (f n).outOfOrder = n.outOfOrder := by rw [here]
  calc f (n.countLate late)
      = { f n with outOfOrder := n.outOfOrder + late } := plain n _
    _ = (f n).countLate late := by rw [CacheCounts.countLate, same]

namespace Controller

variable {c c' : Controller} {late : Nat}

/-- The first controller has counted some more late requests; nothing else is different. -/
def Behind (late : Nat) (c c' : Controller) : Prop := c = c'.modifyCounts (·.countLate late)

theorem behind_unseen (late : Nat) : Unseen (Behind late) where
  veil := by
    rintro _ c' rfl
    exact ⟨c'.layer.ledger, c'.layer.epoch, c'.layer.counts, c'.counts, rfl⟩
  sets := by
    rintro _ c' sets rfl
    rfl
  organisation := by
    rintro _ c' o rfl
    rfl
  pageTable := by
    rintro _ c' t rfl
    rfl
  stack := by
    rintro _ c' stack rfl
    rfl
  counts := by
    rintro _ c' f plain rfl
    exact congrArg (fun counts => { c' with counts := counts }) (plain.countLate c'.counts late)
  recorded := by
    rintro _ c' row n rfl
    have layer : (c'.modifyCounts (·.countLate late)).layer = c'.layer := rfl
    rw [layer]
    cases c'.layer.recordAccess row n with
    | error cause => exact .error cause
    | ok layer => exact .ok rfl

/-! ## Order -/

/-- A late request is counted, and takes the place of one that comes with the latest before it. -/
theorem order_eq (c : Controller) (time : Time) :
    c.order time = (c.lastTime.later time,
      { c with lastTime := c.lastTime.later time }.modifyCounts
        (·.countLate (if time < c.lastTime then 1 else 0))) := by
  unfold order
  by_cases behind : time < c.lastTime
  · have latest : c.lastTime.later time = c.lastTime := if_neg (Nat.lt_asymm behind)
    rw [if_pos behind, latest, if_pos behind]
    rfl
  · have latest : c.lastTime.later time = time := Time.later_eq_right (Nat.not_lt.1 behind)
    rw [if_neg behind, latest, if_neg behind]
    rfl

/-! ## The toll -/

theorem add_countLate (c : Controller) (t : Toll) (set : CacheSet) :
    Toll.add c { t with counts := t.counts.countLate late } set =
      { t.add c set with counts := (t.add c set).counts.countLate late } := by
  unfold Toll.add Toll.addDropped Toll.addMoved
  cases c.layer.consequence set.placement with
  | none => rfl
  | dropped => cases h : set.validBlocks <;> rfl
  | moved => cases h : set.validBlocks <;> rfl

theorem foldl_countLate (c : Controller) (sets : List CacheSet) (late : Nat) (t : Toll) :
    sets.foldl (Toll.add c) { t with counts := t.counts.countLate late } =
      { sets.foldl (Toll.add c) t with
        counts := (sets.foldl (Toll.add c) t).counts.countLate late } := by
  induction sets generalizing t with
  | nil => rfl
  | cons set sets ih => rw [List.foldl_cons, add_countLate, ih, List.foldl_cons]

namespace Behind

theorem refl (c : Controller) : c.Behind 0 c := rfl

theorem drawConsequences (h : c.Behind late c') :
    c'.drawConsequences.1 = c.drawConsequences.1 ∧ c.settled.Behind late c'.settled := by
  subst h
  have toll : (c'.modifyCounts (·.countLate late)).toll =
      { c'.toll with counts := c'.toll.counts.countLate late } := by
    have folded := foldl_countLate c' c'.sets.toList late
      { vaults := Array.replicate c'.stack.geometry.vaults Time.zero, counts := c'.counts }
    simp only [Array.foldl_toList] at folded
    exact folded
  have pending : (c'.modifyCounts (·.countLate late)).layer.pending = c'.layer.pending := rfl
  unfold settled Controller.drawConsequences
  rw [toll, pending]
  cases c'.layer.pending with
  | false => exact ⟨rfl, rfl⟩
  | true => exact ⟨rfl, rfl⟩

/-! ## Requests -/

/-- A late request arrives as the one that comes with the latest before it. -/
theorem arrived (h : c.Behind late c') (time : Time) (access : Access) :
    (c'.order (c.lastTime.later time)).1 = (c.order time).1 ∧
      (c.arrived time access).Behind (late + if time < c.lastTime then 1 else 0)
        (c'.arrived (c.lastTime.later time) access) := by
  have last : c'.lastTime = c.lastTime := by rw [h]; rfl
  -- Its time is not before the latest one, and stays.
  have again : c'.lastTime.later (c.lastTime.later time) = c.lastTime.later time := by
    rw [last]
    exact Time.later_later _ _
  have inTime : ¬c.lastTime.later time < c'.lastTime := by
    rw [last]
    exact Nat.not_lt.2 (Time.le_later _ _)
  unfold Controller.arrived
  rw [order_eq, order_eq, again, if_neg inTime]
  refine ⟨rfl, ?_⟩
  subst h
  have sum := c'.counts.countLate_countLate late (if time < c'.lastTime then 1 else 0)
  let counting (counts : CacheCounts) : Controller :=
    { c' with lastTime := c'.lastTime.later time, counts := counts }.countRequest access
  cases access <;> exact congrArg counting sum

/-- A late request has the outcome that it has in time. -/
theorem request (h : c.Behind late c') (coherent : ∀ set ∈ c.sets.toList, set.Coherent)
    (time : Time) (size addr : Nat) (access : Access) :
    (c'.request (c.lastTime.later time) size addr access).1 =
        (c.request time size addr access).1 ∧
      (c.request time size addr access).2.Behind (late + if time < c.lastTime then 1 else 0)
        (c'.request (c.lastTime.later time) size addr access).2 := by
  have sets : c'.sets = c.sets := by rw [h]; rfl
  rcases h.arrived time access with ⟨arrival, arrived⟩
  rcases arrived.drawConsequences with ⟨toll, settled⟩
  rw [request_proceeds coherent, request_proceeds (sets ▸ coherent), arrival, toll]
  exact (behind_unseen _).proceed settled _ _ _ _ _

/-! ## Other operations -/

theorem layer (h : c.Behind late c') : c'.layer = c.layer := by rw [h]; rfl

/-- The same is done to both layers, which are the same. -/
theorem modifyLayer (h : c.Behind late c') (f : Layer → Layer) :
    (c.modifyLayer f).Behind late (c'.modifyLayer f) := by
  subst h
  rfl

/-- A bank is marked in both or refused in both. -/
theorem setHot (h : c.Behind late c') (p : BankPlace) (hot : Bool) :
    SameOutcome (Behind late) (c.setHot p hot) (c'.setHot p hot) := by
  subst h
  have stack : (c'.modifyCounts (·.countLate late)).stack = c'.stack := rfl
  unfold Controller.setHot
  rw [stack]
  cases Stack.setHot p hot c'.stack with
  | ok u stack => exact .ok rfl
  | error cause stack => exact .error cause

/-- The difference is forgotten with all counts. -/
theorem resetCounts (h : c.Behind late c') : c.resetCounts.Behind 0 c'.resetCounts := by
  subst h
  rfl

end Behind

/-- The latest request is remembered, even if it fails. -/
theorem request_lastTime (coherent : ∀ set ∈ c.sets.toList, set.Coherent) (time : Time)
    (size addr : Nat) (access : Access) :
    (c.request time size addr access).2.lastTime = c.lastTime.later time := by
  let Same (s s' : Service) : Prop := s'.controller.lastTime = s.controller.lastTime
  have covers : Service.Covering Same :=
    { refl := fun _ => rfl
      trans := fun first second => second.trans first
      charge := fun _ _ => rfl
      sets := fun _ _ => rfl
      organisation := fun _ _ => rfl
      pageTable := fun _ _ => rfl
      stack := fun _ _ => rfl
      layer := fun _ _ _ _ _ => rfl }
  have settled : (c.arrived time access).settled.lastTime = (c.arrived time access).lastTime := by
    unfold settled drawConsequences
    split <;> rfl
  have arrived : (c.arrived time access).lastTime = c.lastTime.later time := by
    unfold arrived
    rw [order_eq]
    cases access <;> rfl
  rw [request_proceeds coherent]
  calc _ = (c.arrived time access).settled.lastTime :=
        proceed_leads (R := Same) (Service.within_serveSettled covers (fun _ _ => rfl) _ _ _ _)
    _ = c.lastTime.later time := settled.trans arrived

end Controller

end StackedCache
