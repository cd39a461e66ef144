import StackedCache.Proofs.Residency.Recency
import Mathlib.Data.Nat.Find

/-!
# Ages in place of recency

Ages that are counted to the end put the ways in the same order as recency does.  So two sets of pages
that are asked the same, one ranked by age and one by recency, give the same answers and hold the
same pages, as long as at most one way is of full age whenever a way has to be given up:
`serveAll_agree`.

A set is compared with the other one through what it is without its ranks, `ageless`.  All that is
asked of a set but the choice of a victim commutes with forgetting the ranks.
-/

namespace StackedCache.CacheSet

variable {s t : CacheSet} {way tag : Nat} {by_ : Ageing} {past : List Nat}

/-! ## Demands -/

/-- What is asked of a set. -/
inductive Demand where
  /-- A lookup; if the tag is missing, the victim is filled with it and the block is marked. -/
  | request (access : Access) (tag block : Nat) (predicted : BlockSet) (trigger : Nat)
  | dropWay (way : Nat)
  | drop

/-- What comes of it. -/
inductive Answer where
  | found (way : Nat) (lookup : Lookup)
  /-- The way was filled, although the block that was to be marked may not exist. -/
  | replaced (way : Nat) (evicted : Eviction) (fault : Option CacheFault)
  | refused (cause : CacheFault)
  | dropped (dirty : Nat)
  deriving DecidableEq

/-- Fills a way and marks the block that was asked for. -/
def replace (s : CacheSet) (way : Nat) (access : Access) (tag block : Nat) (predicted : BlockSet)
    (trigger : Nat) : Answer × CacheSet :=
  match fillWay way tag predicted trigger s with
  | .error cause left => (.refused cause, left)
  | .ok evicted filled =>
      match filled.markBlock way access block with
      | .error cause => (.replaced way evicted (some cause), filled)
      | .ok marked => (.replaced way evicted none, marked)

def serve (s : CacheSet) : Demand → Answer × CacheSet
  | .request access tag block predicted trigger =>
      let (lookup, looked) := s.access access tag block
      match s.find? tag with
      | some way => (.found way lookup, looked)
      | none =>
          let (way, chosen) := looked.chooseVictim
          chosen.replace way access tag block predicted trigger
  | .dropWay way =>
      match s.dropWay way with
      | .error cause => (.refused cause, s)
      | .ok (dirty, left) => (.dropped dirty, left)
  | .drop => (.dropped s.droppedDirty, s.drop)

/-- The answers to demands in order, and the set that they lead to. -/
def serveAll (s : CacheSet) : List Demand → List Answer × CacheSet
  | [] => ([], s)
  | demand :: demands =>
      let (answer, next) := s.serve demand
      let (answers, last) := next.serveAll demands
      (answer :: answers, last)

/-- The way that was touched. -/
def Answer.used : Answer → Option Nat
  | .found way _ => some way
  | .replaced way _ _ => some way
  | .refused _ => none
  | .dropped _ => none

/-- The ways that were touched, latest first. -/
def latest (answers : List Answer) : List Nat := (answers.filterMap Answer.used).reverse

/-! ## Records -/

theorem Recorded.replace (h : s.Recorded by_ past) (way : Nat) (access : Access) (tag block : Nat)
    (predicted : BlockSet) (trigger : Nat) :
    (s.replace way access tag block predicted trigger).2.Recorded by_
      ((s.replace way access tag block predicted trigger).1.used.toList ++ past) := by
  have filled := h.perform (.fill way tag predicted trigger)
  simp only [CacheSet.perform, Operation.used] at filled
  unfold CacheSet.replace
  generalize fillWay way tag predicted trigger s = r at filled ⊢
  cases r with
  | error cause left => exact filled
  | ok evicted full =>
      have marked := filled.perform (.markBlock way access block)
      simp only [CacheSet.perform, final] at marked ⊢
      generalize full.markBlock way access block = r at marked ⊢
      cases r with
      | error cause => exact marked
      | ok next => exact marked

/-- An answer tells which way was used. -/
theorem Recorded.serve (h : s.Recorded by_ past) (demand : Demand) :
    (s.serve demand).2.Recorded by_ ((s.serve demand).1.used.toList ++ past) := by
  cases demand with
  | request access tag block predicted trigger =>
      have looked := h.perform (.lookup access tag block)
      simp only [CacheSet.perform, Operation.used] at looked
      simp only [CacheSet.serve]
      cases found : s.find? tag with
      | some way =>
          rw [found] at looked
          exact looked
      | none =>
          rw [found] at looked
          exact (looked.perform .chooseVictim).replace _ access tag block predicted trigger
  | dropWay way =>
      have left := h.perform (.dropWay way)
      simp only [CacheSet.perform] at left
      simp only [CacheSet.serve]
      generalize s.dropWay way = r at left ⊢
      cases r with
      | error cause => exact left
      | ok result => exact left
  | drop => exact h.perform .drop

/-! ## Sets without ranks -/

/-- The set without the ranks of its ways. -/
def ageless (s : CacheSet) : CacheSet := { s with lines := s.content, ranking := .direct }

@[simp]
theorem blockOf_ageless (s : CacheSet) (block : Nat) : s.ageless.blockOf block = s.blockOf block := rfl

@[simp]
theorem ways_ageless (s : CacheSet) : s.ageless.ways = s.ways := s.content_length

@[simp]
theorem tags_ageless (s : CacheSet) : s.ageless.tags = s.tags := by
  simp only [tags, ageless, content, List.map_map]
  rfl

@[simp]
theorem getElem?_ageless (s : CacheSet) (way : Nat) :
    s.ageless.lines[way]? = s.lines[way]?.map Line.young := List.getElem?_map ..

@[simp]
theorem find?_ageless (s : CacheSet) (tag : Nat) : s.ageless.find? tag = s.find? tag := by
  simp only [find?, ageless, content, List.findIdx?_map]
  rfl

@[simp]
theorem heldElsewhere_ageless (s : CacheSet) (way tag : Nat) :
    s.ageless.heldElsewhere way tag = s.heldElsewhere way tag := by
  rw [Bool.eq_iff_iff, heldElsewhere_iff, heldElsewhere_iff]
  simp only [Holds, tags_ageless]

theorem ageless_touchWay (s : CacheSet) (way : Nat) : (s.touchWay way).ageless = s.ageless := by
  simp only [ageless, content_touchWay]
  rfl

theorem ageless_modifyLine (s : CacheSet) (way : Nat) {f : Line → Line}
    (young : ∀ l : Line, (f l).young = f l.young) :
    (s.modifyLine way f).ageless = s.ageless.modifyLine way f := by
  simp only [ageless, content_modifyLine s way young]
  rfl

theorem ageless_access (s : CacheSet) (access : Access) (tag block : Nat) :
    s.ageless.access access tag block =
      ((s.access access tag block).1, (s.access access tag block).2.ageless) := by
  have counted : ∀ s : CacheSet, ({ s with reads := s.reads + 1 } : CacheSet).ageless =
      { s.ageless with reads := s.ageless.reads + 1 } := fun _ => rfl
  simp only [CacheSet.access, ← counted, find?_ageless]
  cases ({ s with reads := s.reads + 1 } : CacheSet).find? tag with
  | none => rfl
  | some way =>
      have marked : ∀ s : CacheSet, ∀ block,
          (s.ageless.touchWay way).modifyLine way (·.touchBlock access block) =
            ((s.touchWay way).modifyLine way (·.touchBlock access block)).ageless := by
        intro s block
        rw [ageless_modifyLine _ way (young_touchBlock access block), ageless_touchWay]
        rfl
      have present : ∀ block,
          ((s.lines[way]?.map Line.young).map fun l => l.valid.contains block) =
            s.lines[way]?.map fun l => l.valid.contains block := by
        intro block
        rw [Option.map_map]
        rfl
      simp only [marked, blockOf_ageless, getElem?_ageless, present]
      split <;> rfl

theorem ageless_replaceLine (s : CacheSet) (way tag : Nat) (predicted : BlockSet) (trigger : Nat) :
    (s.replaceLine way tag predicted trigger).ageless =
      s.ageless.replaceLine way tag predicted trigger := by
  have filled := s.ageless_modifyLine way (f := (·.fill tag
    (if s.kind.tracksBlocks then predicted else .empty) trigger)) fun _ => rfl
  exact congrArg (fun t : CacheSet => { t with writes := t.writes + 1 }) filled

theorem ageless_fillWay (s : CacheSet) (way tag : Nat) (predicted : BlockSet) (trigger : Nat) :
    fillWay way tag predicted trigger s.ageless =
      match fillWay way tag predicted trigger s with
      | .ok evicted filled => .ok evicted filled.ageless
      | .error cause left => .error cause left.ageless := by
  simp only [fillWay_apply, getElem?_ageless, heldElsewhere_ageless, ways_ageless,
    ← ageless_replaceLine, find?_ageless]
  cases s.lines[way]? with
  | none => rfl
  | some old =>
      by_cases improper : tag = noTag
      · simp only [improper, Option.map_some, if_true]
      · cases s.heldElsewhere way tag with
        | true => simp only [improper, Option.map_some, if_true, if_false]
        | false =>
            generalize s.replaceLine way tag predicted trigger = filled
            simp only [improper, Option.map_some, Bool.false_eq_true, if_false]
            cases filled.find? tag with
            | none => rfl
            | some holder =>
                simp only [ageless_touchWay]
                rfl

theorem ageless_markBlock (s : CacheSet) (way : Nat) (access : Access) (block : Nat) :
    s.ageless.markBlock way access block = (s.markBlock way access block).map ageless := by
  simp only [markBlock, blockOf_ageless, ways_ageless,
    ← ageless_modifyLine s way (young_touchBlock access (s.blockOf block))]
  by_cases beyond : maxBlocks ≤ s.blockOf block
  · simp only [beyond, if_true]
    rfl
  · by_cases missing : s.ways ≤ way
    · simp only [beyond, missing, if_true, if_false]
      rfl
    · simp only [beyond, missing, if_false]
      rfl

theorem ageless_replace (s : CacheSet) (way : Nat) (access : Access) (tag block : Nat)
    (predicted : BlockSet) (trigger : Nat) :
    s.ageless.replace way access tag block predicted trigger =
      ((s.replace way access tag block predicted trigger).1,
        (s.replace way access tag block predicted trigger).2.ageless) := by
  simp only [replace, ageless_fillWay]
  cases fillWay way tag predicted trigger s with
  | error cause left => rfl
  | ok evicted filled =>
      simp only [ageless_markBlock]
      cases filled.markBlock way access block with
      | error cause => rfl
      | ok marked => rfl

theorem ageless_dropWay (s : CacheSet) (way : Nat) :
    s.ageless.dropWay way = (s.dropWay way).map fun r => (r.1, r.2.ageless) := by
  simp only [dropWay, getElem?_ageless, ways_ageless]
  cases s.lines[way]? with
  | none => rfl
  | some l =>
      simp only [Option.map_some, ← ageless_modifyLine s way young_drop]
      rfl

theorem ageless_drop (s : CacheSet) :
    s.ageless.drop = s.drop.ageless ∧ s.ageless.droppedDirty = s.droppedDirty := by
  refine ⟨?_, ?_⟩
  · have lines := (content_drop s).symm
    exact congrArg (fun lines => ({ s with lines := lines, ranking := .direct } : CacheSet)) lines
  · simp only [droppedDirty, ageless, content, List.map_map]
    rfl

/-! ## Two sets -/

/-- A request takes a way from another tag. -/
def Evicts (s : CacheSet) : Demand → Prop
  | .request _ tag _ _ _ => s.find? tag = none ∧ tag ≠ noTag ∧ ∀ way, ¬s.Vacant way
  | _ => False

/-- At most one way has not been touched for as long as ages are counted. -/
def AtMostOneStale (s : CacheSet) (past : List Nat) : Prop :=
  ∀ way other, way < s.ways → other < s.ways → 255 ≤ past.idxOf way → 255 ≤ past.idxOf other →
    way = other

/-- Two sets with one past that differ in their ranks only, the first one ranked by age, the second
one by recency. -/
structure Paired (past : List Nat) (s t : CacheSet) : Prop where
  aged : s.Recorded .maxAge past
  recent : t.Recorded .lru past
  same : s.ageless = t.ageless

theorem Paired.ways (h : Paired past s t) : s.ways = t.ways := by
  rw [← ways_ageless, h.same, ways_ageless]

theorem Paired.vacant_iff (h : Paired past s t) : s.Vacant way ↔ t.Vacant way := by
  rw [Vacant, Vacant, ← tags_ageless, h.same, tags_ageless]

/-- The first vacant way is the victim in both sets. -/
theorem Paired.victim_eq_of_vacant (h : Paired past s t) (vacant : ∃ way, s.Vacant way) :
    s.chooseVictim.1 = t.chooseVictim.1 := by
  classical
  have first := Nat.find_spec vacant
  have before : ∀ earlier < Nat.find vacant, ¬s.Vacant earlier := fun _ => Nat.find_min vacant
  rw [victim_of_vacant h.aged.ranking first before,
    victim_of_vacant h.recent.ranking (h.vacant_iff.1 first) fun earlier hlt =>
      mt h.vacant_iff.2 (before earlier hlt)]

/-- In a full set, ages and recency agree on the victim unless two ways are of full age. -/
theorem Paired.victim_eq (h : Paired past s t) (full : ∀ way, ¬s.Vacant way)
    (stale : s.AtMostOneStale past) : s.chooseVictim.1 = t.chooseVictim.1 := by
  rcases h.aged.usage_victim full with ⟨hlt, oldest⟩
  rcases h.recent.usage_victim fun way => mt h.vacant_iff.2 (full way) with ⟨hlt', last⟩
  rw [← h.ways] at hlt' last
  refine Decidable.byContradiction fun apart => ?_
  -- The way used last is the older one, and it is not the victim by age only if both are of full age.
  have used : t.chooseVictim.1 ∈ past := by
    rcases holds_of_not_vacant hlt' (full _) with ⟨tag, held⟩
    exact h.aged.held _ tag held
  have later : past.idxOf s.chooseVictim.1 < past.idxOf t.chooseVictim.1 := by
    refine (recency_idxOf_lt_iff past _ _).1 (Nat.lt_of_le_of_ne (last _ hlt) fun eq => ?_)
    exact apart ((List.idxOf_inj (mem_recency.2 used)).1 eq.symm).symm
  have age := oldest _ hlt'
  simp only [Ageing.usage, usageLimit] at age
  exact apart (stale _ _ hlt hlt' (by omega) (by omega))

/-- No way takes the number that stands for no tag, whichever is the victim. -/
theorem replace_noTag (hway : way < s.ways) (access : Access) (block : Nat) (predicted : BlockSet)
    (trigger : Nat) :
    s.replace way access noTag block predicted trigger = (.refused (.lookupMiss noTag), s) := by
  have found : s.lines[way]? = some s.lines[way] := List.getElem?_eq_getElem hway
  simp only [replace, fillWay_apply, found, if_true]

/-- Replacements in the same way are alike. -/
theorem replace_same (same : s.ageless = t.ageless) (way : Nat) (access : Access) (tag block : Nat)
    (predicted : BlockSet) (trigger : Nat) :
    (s.replace way access tag block predicted trigger).1 =
        (t.replace way access tag block predicted trigger).1 ∧
      (s.replace way access tag block predicted trigger).2.ageless =
        (t.replace way access tag block predicted trigger).2.ageless := by
  have replaced := s.ageless_replace way access tag block predicted trigger
  rw [same, ageless_replace] at replaced
  exact ⟨(congrArg Prod.fst replaced).symm, (congrArg Prod.snd replaced).symm⟩

theorem chooseVictim_lt (s : CacheSet) (positive : 0 < s.ways) : s.chooseVictim.1 < s.ways :=
  Nat.lt_of_le_of_lt (Nat.min_le_right ..) (Nat.sub_one_lt_of_lt positive)

/-- Both sets take the tag into the same way. -/
theorem Paired.replace_victim (h : Paired past s t) (access : Access) (tag block : Nat)
    (predicted : BlockSet) (trigger : Nat)
    (calm : tag ≠ noTag → (∀ way, ¬s.Vacant way) → s.AtMostOneStale past) :
    let (way, chosen) := s.chooseVictim
    let (way', chosen') := t.chooseVictim
    let r := chosen.replace way access tag block predicted trigger
    let r' := chosen'.replace way' access tag block predicted trigger
    r.1 = r'.1 ∧ r.2.ageless = r'.2.ageless := by
  have same : s.chooseVictim.2.ageless = t.chooseVictim.2.ageless :=
    congrArg (fun u : CacheSet => { u with reads := u.reads + 1 }) h.same
  by_cases improper : tag = noTag
  · -- The victims may differ, but neither of them takes the tag.
    subst improper
    have refused := fun u : CacheSet => fun positive =>
      replace_noTag (s := u.chooseVictim.2) (u.chooseVictim_lt positive) access block predicted
        trigger
    dsimp only
    rw [refused s h.aged.positive, refused t h.recent.positive]
    exact ⟨rfl, same⟩
  · have victim : s.chooseVictim.1 = t.chooseVictim.1 := by
      by_cases vacant : ∃ way, s.Vacant way
      · exact h.victim_eq_of_vacant vacant
      · have full : ∀ way, ¬s.Vacant way := fun way free => vacant ⟨way, free⟩
        exact h.victim_eq full (calm improper full)
    dsimp only
    rw [victim]
    exact replace_same same _ access tag block predicted trigger

/-- A lookup goes alike, and so does what follows if the tag is missing. -/
theorem Paired.serve_request (h : Paired past s t) (access : Access) (tag block : Nat)
    (predicted : BlockSet) (trigger : Nat)
    (calm : s.Evicts (.request access tag block predicted trigger) → s.AtMostOneStale past) :
    (s.serve (.request access tag block predicted trigger)).1 =
        (t.serve (.request access tag block predicted trigger)).1 ∧
      (s.serve (.request access tag block predicted trigger)).2.ageless =
        (t.serve (.request access tag block predicted trigger)).2.ageless := by
  have looked := s.ageless_access access tag block
  rw [h.same, ageless_access] at looked
  have lookup := (congrArg Prod.fst looked).symm
  have same := (congrArg Prod.snd looked).symm
  have found : t.find? tag = s.find? tag := by rw [← find?_ageless, ← h.same, find?_ageless]
  have aged := h.aged.perform (.lookup access tag block)
  have recent := h.recent.perform (.lookup access tag block)
  simp only [CacheSet.perform, Operation.used, found] at aged recent
  simp only [CacheSet.serve, found]
  cases missing : s.find? tag with
  | some way => exact ⟨congrArg (Answer.found way) lookup, same⟩
  | none =>
      rw [missing] at aged recent
      -- A lookup of a missing tag leaves all ways as they are.
      rcases access_of_missing missing access block with ⟨looked, eq, alike⟩
      rw [eq] at same aged ⊢
      refine Paired.replace_victim ⟨aged, recent, same⟩ access tag block predicted trigger
        fun proper full => ?_
      have vacant : ∀ way, looked.Vacant way ↔ s.Vacant way := by
        intro way
        rw [Vacant, Vacant, tags, tags, alike.lines]
      have stale := calm ⟨missing, proper, fun way => mt (vacant way).2 (full way)⟩
      unfold AtMostOneStale CacheSet.ways
      rw [alike.lines]
      exact stale

theorem Paired.serve_dropWay (h : Paired past s t) (way : Nat) :
    (s.serve (.dropWay way)).1 = (t.serve (.dropWay way)).1 ∧
      (s.serve (.dropWay way)).2.ageless = (t.serve (.dropWay way)).2.ageless := by
  have dropped := s.ageless_dropWay way
  rw [h.same, ageless_dropWay] at dropped
  simp only [CacheSet.serve]
  generalize s.dropWay way = r, t.dropWay way = r' at dropped ⊢
  cases r with
  | error cause =>
      cases r' with
      | error cause' =>
          cases dropped
          exact ⟨rfl, h.same⟩
      | ok result => cases dropped
  | ok result =>
      cases r' with
      | error cause => cases dropped
      | ok result' =>
          simp only [Except.map, Except.ok.injEq, Prod.mk.injEq] at dropped
          exact ⟨congrArg Answer.dropped dropped.1.symm, dropped.2.symm⟩

/-- Both sets answer alike, and they stay alike. -/
theorem Paired.serve (h : Paired past s t) (demand : Demand)
    (calm : s.Evicts demand → s.AtMostOneStale past) :
    (s.serve demand).1 = (t.serve demand).1 ∧
      Paired ((s.serve demand).1.used.toList ++ past) (s.serve demand).2 (t.serve demand).2 := by
  -- What is left to show is that answers agree, and the sets without their ranks.
  suffices alike : (s.serve demand).1 = (t.serve demand).1 ∧
      (s.serve demand).2.ageless = (t.serve demand).2.ageless by
    refine ⟨alike.1, h.aged.serve demand, ?_, alike.2⟩
    rw [alike.1]
    exact h.recent.serve demand
  cases demand with
  | request access tag block predicted trigger =>
      exact h.serve_request access tag block predicted trigger calm
  | dropWay way => exact h.serve_dropWay way
  | drop =>
      have dropped := s.ageless_drop
      rw [h.same] at dropped
      exact ⟨congrArg Answer.dropped (dropped.2.symm.trans t.ageless_drop.2),
        dropped.1.symm.trans t.ageless_drop.1⟩

/-- Ages are counted to the end while there are few touches. -/
theorem atMostOneStale_of_short (short : past.length < 255) : s.AtMostOneStale past := by
  intro way other _ _ stale
  have place : past.idxOf way ≤ past.length := List.idxOf_le_length
  omega

theorem latest_length_le (s : CacheSet) (demands : List Demand) :
    (latest (s.serveAll demands).1).length ≤ demands.length := by
  have answers : (s.serveAll demands).1.length = demands.length := by
    induction demands generalizing s with
    | nil => rfl
    | cons demand demands ih => exact congrArg Nat.succ (ih _)
  rw [latest, List.length_reverse, ← answers]
  exact List.length_filterMap_le ..

theorem latest_cons (answer : Answer) (answers : List Answer) (past : List Nat) :
    latest (answer :: answers) ++ past = latest answers ++ (answer.used.toList ++ past) := by
  cases h : answer.used <;> simp [latest, h]

theorem Paired.serveAll (h : Paired past s t) (demands : List Demand)
    (calm : ∀ before demand after, demands = before ++ demand :: after →
      (s.serveAll before).2.Evicts demand →
      (s.serveAll before).2.AtMostOneStale (latest (s.serveAll before).1 ++ past)) :
    (s.serveAll demands).1 = (t.serveAll demands).1 ∧
      (s.serveAll demands).2.ageless = (t.serveAll demands).2.ageless := by
  induction demands generalizing s t past with
  | nil => exact ⟨rfl, h.same⟩
  | cons demand demands ih =>
      rcases h.serve demand (calm [] demand demands rfl) with ⟨answer, next⟩
      have rest := ih next fun before later after eq evicts => by
        have stale := calm (demand :: before) later after (by rw [eq]; rfl) evicts
        rw [← latest_cons]
        exact stale
      simp only [CacheSet.serveAll]
      exact ⟨congr (congrArg _ answer) rest.1, rest.2⟩

/-- Sets of pages that are ranked by age and by recency give the same answers to the same demands and
hold the same lines but for their usages, if at most one way has not been touched 255 times or more
whenever a request takes a way from another tag. -/
theorem serveAll_agree (ways : Nat) (placement : Location) (demands : List Demand)
    (bound : ways ≤ 255)
    (calm : let aged := ofKind .page ways .maxAge placement
      ∀ before demand after, demands = before ++ demand :: after →
        let (answers, s) := aged.serveAll before
        s.Evicts demand → s.AtMostOneStale (latest answers)) :
    let aged := ofKind .page ways .maxAge placement
    let recent := ofKind .page ways .lru placement
    (aged.serveAll demands).1 = (recent.serveAll demands).1 ∧
      (aged.serveAll demands).2.content = (recent.serveAll demands).2.content ∧
      (aged.serveAll demands).2.reads = (recent.serveAll demands).2.reads ∧
      (aged.serveAll demands).2.writes = (recent.serveAll demands).2.writes := by
  intro aged recent
  have paired : Paired [] aged recent :=
    ⟨ofKind_recorded placement rfl bound, ofKind_recorded placement rfl bound, rfl⟩
  rcases paired.serveAll demands fun before demand after eq evicts => by
      rw [List.append_nil]
      exact calm before demand after eq evicts with ⟨answers, same⟩
  have lines := congrArg CacheSet.lines same
  have reads := congrArg CacheSet.reads same
  have writes := congrArg CacheSet.writes same
  exact ⟨answers, lines, reads, writes⟩

/-- Two ways are filled, the first one is hit, and the second one makes room for a third tag, also
after the set was asked for what no line has. -/
theorem serveAll_agree_two :
    let aged := ofKind .page 2 .maxAge ⟨0, 0, 0⟩
    let recent := ofKind .page 2 .lru ⟨0, 0, 0⟩
    let demands : List Demand :=
      [.request .read 7 4 .empty 0, .request .write 8 5 .empty 0, .request .read 7 6 .empty 0,
        .request .read 9 64 .empty 0, .dropWay 2, .request .read noTag 0 .empty 0, .drop]
    (aged.serveAll demands).1 = (recent.serveAll demands).1 ∧
      (recent.serveAll demands).1.map Answer.used =
        [some 0, some 1, some 0, some 1, none, none, none] := by
  intro aged recent demands
  refine ⟨(serveAll_agree 2 ⟨0, 0, 0⟩ demands (by decide) ?_).1, by decide +kernel⟩
  intro aged before demand after eq evicts
  refine atMostOneStale_of_short (Nat.lt_of_le_of_lt (latest_length_le aged before) ?_)
  have fewer := congrArg List.length eq
  rw [List.length_append] at fewer
  exact Nat.lt_of_le_of_lt (Nat.le.intro fewer.symm) (by decide)

end StackedCache.CacheSet
