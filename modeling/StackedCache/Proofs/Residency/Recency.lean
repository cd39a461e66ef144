import StackedCache.Proofs.Residency.Tags
import Mathlib.Data.List.Perm.Subperm

/-!
# Ranking by recency

Which ways of a set were used, latest first, is a list that operations make longer.  The usage of a way
can be read off it, for both kinds of ageing: by age it is the number of uses since the last one of
the way, as far as it is counted, and by recency the place of the way among those used, which is
never cut off while there are no more ways than usages: `Ranked`.

So in a set ranked by recency the victim is a vacant way, or else the way that was used least
recently: `run_recency`.
-/

namespace StackedCache

/-! ## Latest first -/

/-- The ways used, each once, by their latest use; the uses come latest first, too. -/
def recency : List Nat → List Nat
  | [] => []
  | way :: uses => way :: (recency uses).filter fun other => other ≠ way

theorem mem_recency {uses : List Nat} {way : Nat} : way ∈ recency uses ↔ way ∈ uses := by
  induction uses with
  | nil => rfl
  | cons latest uses ih =>
      by_cases here : way = latest
      · simp [recency, here]
      · simp [recency, here, ih]

theorem nodup_recency (uses : List Nat) : (recency uses).Nodup := by
  induction uses with
  | nil => exact List.nodup_nil
  | cons way uses ih => exact List.nodup_cons.2 ⟨by simp, ih.filter _⟩

/-- Those that stay in a list stay in order. -/
theorem idxOf_filter_lt_iff {p : Nat → Bool} {a b : Nat} (ha : p a = true) (hb : p b = true)
    (xs : List Nat) :
    (xs.filter p).idxOf a < (xs.filter p).idxOf b ↔ xs.idxOf a < xs.idxOf b := by
  induction xs with
  | nil => rfl
  | cons x xs ih =>
      cases hx : p x with
      | true =>
          rw [List.filter_cons_of_pos hx]
          by_cases hxb : x = b
          · simp [hxb]
          · by_cases hxa : x = a
            · simp [hxa, List.idxOf_cons_ne _ (hxa ▸ hxb)]
            · simp only [List.idxOf_cons_ne _ hxa, List.idxOf_cons_ne _ hxb,
                Nat.succ_lt_succ_iff, ih]
      | false =>
          have apart : ∀ {c : Nat}, p c = true → x ≠ c := by
            rintro c hc rfl
            exact Bool.false_ne_true (hx.symm.trans hc)
          rw [List.filter_cons_of_neg (by simp [hx]), ih, List.idxOf_cons_ne _ (apart ha),
            List.idxOf_cons_ne _ (apart hb), Nat.succ_lt_succ_iff]

/-- A way comes before another one if its latest use does. -/
theorem recency_idxOf_lt_iff (uses : List Nat) (a b : Nat) :
    (recency uses).idxOf a < (recency uses).idxOf b ↔ uses.idxOf a < uses.idxOf b := by
  induction uses with
  | nil => rfl
  | cons way uses ih =>
      rw [recency]
      by_cases hb : way = b
      · simp [hb]
      · by_cases ha : way = a
        · simp [ha, List.idxOf_cons_ne _ (ha ▸ hb)]
        · have filtered := idxOf_filter_lt_iff (p := fun other => other ≠ way)
            (by simpa using Ne.symm ha) (by simpa using Ne.symm hb) (recency uses)
          rw [List.idxOf_cons_ne _ ha, List.idxOf_cons_ne _ hb, List.idxOf_cons_ne _ ha,
            List.idxOf_cons_ne _ hb, Nat.succ_lt_succ_iff, Nat.succ_lt_succ_iff, filtered, ih]

/-- A way that leaves its place was counted before those behind it. -/
theorem idxOf_filter_ne {xs : List Nat} (nodup : xs.Nodup) {way other : Nat} (apart : way ≠ other) :
    (xs.filter fun x => x ≠ way).idxOf other + (if xs.idxOf way < xs.idxOf other then 1 else 0) =
      xs.idxOf other := by
  induction xs with
  | nil => rfl
  | cons x xs ih =>
      rcases List.nodup_cons.1 nodup with ⟨fresh, nodup⟩
      by_cases hway : x = way
      · subst hway
        have stay : (xs.filter fun y => y ≠ x) = xs :=
          List.filter_eq_self.2 fun y hy => by
            simpa using fun eq : y = x => fresh (eq ▸ hy)
        rw [List.filter_cons_of_neg (by simp), stay, List.idxOf_cons_self,
          List.idxOf_cons_ne _ apart, if_pos (Nat.succ_pos _)]
      · rw [List.filter_cons_of_pos (by simpa using hway)]
        by_cases hother : x = other
        · simp [hother]
        · simp only [List.idxOf_cons_ne _ hway, List.idxOf_cons_ne _ hother,
            Nat.succ_lt_succ_iff]
          have rest := ih nodup
          omega

/-- The latest way comes first, and the ways up to its old place move back by one place. -/
theorem idxOf_recency_cons (uses : List Nat) (latest way : Nat) :
    (recency (latest :: uses)).idxOf way =
      if way = latest then 0
      else if (recency uses).idxOf way ≤ (recency uses).idxOf latest then (recency uses).idxOf way + 1
      else (recency uses).idxOf way := by
  by_cases here : way = latest
  · simp [recency, here]
  · have moved := idxOf_filter_ne (nodup_recency uses) (Ne.symm here)
    rw [if_neg here, recency, List.idxOf_cons_ne _ (Ne.symm here)]
    by_cases behind : (recency uses).idxOf latest < (recency uses).idxOf way
    · rw [if_pos behind] at moved
      rw [if_neg (Nat.not_le.2 behind)]
      exact moved
    · rw [if_neg behind] at moved
      rw [if_pos (Nat.not_lt.1 behind)]
      exact congrArg Nat.succ moved

/-- There are no more places than ways. -/
theorem idxOf_recency_lt {uses : List Nat} {n way : Nat} (inside : ∀ used ∈ uses, used < n)
    (hway : way < n) : (recency uses).idxOf way < n := by
  have bounded : ∀ xs : List Nat, xs.Nodup → (∀ x ∈ xs, x < n) → xs.length ≤ n := by
    intro xs nodup below
    have sub : xs ⊆ List.range n := fun x hx => List.mem_range.2 (below x hx)
    simpa using (List.subperm_of_subset nodup sub).length_le
  have below : ∀ used ∈ recency uses, used < n := fun used hused => inside used (mem_recency.1 hused)
  by_cases used : way ∈ recency uses
  · exact Nat.lt_of_lt_of_le (List.idxOf_lt_length_iff.2 used) (bounded _ (nodup_recency uses) below)
  · -- The way adds one more to those used.
    rw [List.idxOf_eq_length used]
    refine bounded (way :: recency uses) (List.nodup_cons.2 ⟨used, nodup_recency uses⟩) ?_
    intro x hx
    rcases List.mem_cons.1 hx with rfl | hx
    · exact hway
    · exact below x hx

/-- The usage of a way after some uses, latest first. -/
def Ageing.usage (uses : List Nat) (way : Nat) : Ageing → Nat
  | .maxAge => min (uses.idxOf way) usageLimit
  | .lru => (recency uses).idxOf way

/-! ## Victims -/

namespace Ranking

theorem oldestFrom_greatest {usage best : Nat} {rest : List Line} :
    ∀ front : List Line, (∃ l, front[best]? = some l ∧ l.usage = usage) →
      (∀ l ∈ front, l.usage ≤ usage) →
      ∃ l, (front ++ rest)[oldestFrom rest front.length usage best]? = some l ∧
        ∀ l' ∈ front ++ rest, l'.usage ≤ l.usage := by
  induction rest generalizing usage best with
  | nil =>
      rintro front ⟨l, hl, rfl⟩ greatest
      exact ⟨l, by simpa [oldestFrom] using hl, by simpa using greatest⟩
  | cons next rest ih =>
      rintro front ⟨l, hl, rfl⟩ greatest
      have longer : front ++ next :: rest = (front ++ [next]) ++ rest := by simp
      have length : (front ++ [next]).length = front.length + 1 := by simp
      rw [oldestFrom, longer, ← length]
      by_cases older : l.usage < next.usage
      · rw [if_pos older]
        refine ih (front ++ [next]) ⟨next, by simp, rfl⟩ fun l' hl' => ?_
        rcases List.mem_append.1 hl' with before | last
        · exact Nat.le_of_lt (Nat.lt_of_le_of_lt (greatest l' before) older)
        · exact Nat.le_of_eq (congrArg Line.usage (List.mem_singleton.1 last))
      · rw [if_neg older]
        have hlt := (List.getElem?_eq_some_iff.1 hl).1
        refine ih (front ++ [next]) ⟨l, by rw [List.getElem?_append_left hlt, hl], rfl⟩
          fun l' hl' => ?_
        rcases List.mem_append.1 hl' with before | last
        · exact greatest l' before
        · rw [List.mem_singleton.1 last]
          exact Nat.not_lt.1 older

/-- No line has a greater usage than the oldest one. -/
theorem oldest_greatest {lines : List Line} (nonempty : 0 < lines.length) :
    ∃ l, lines[oldest lines]? = some l ∧ ∀ l' ∈ lines, l'.usage ≤ l.usage := by
  cases lines with
  | nil => exact absurd nonempty (Nat.lt_irrefl 0)
  | cons l lines =>
      exact oldestFrom_greatest [l] ⟨l, rfl, rfl⟩ fun l' hl' =>
        Nat.le_of_eq (congrArg Line.usage (List.mem_singleton.1 hl'))

end Ranking

namespace Line

theorem usage_touchBlock (l : Line) (access : Access) (block : Nat) :
    (l.touchBlock access block).usage = l.usage := by
  cases access <;> rfl

theorem usage_drop (l : Line) : l.drop.usage = l.usage := by
  unfold drop
  split <;> rfl

end Line

namespace CacheSet

variable {s s' : CacheSet} {way tag : Nat} {by_ : Ageing} {past : List Nat}

/-- The way exists and holds no tag. -/
def Vacant (s : CacheSet) (way : Nat) : Prop := s.tags[way]? = some none

theorem vacant_iff : s.Vacant way ↔ ∃ l, s.lines[way]? = some l ∧ l.isValid = false := by
  simp only [Vacant, tags, List.getElem?_map, Option.map_eq_some_iff, Line.isValid,
    Option.isSome_eq_false_iff, Option.isNone_iff_eq_none]

/-- A way holds a tag, or it is vacant. -/
theorem holds_of_not_vacant (hway : way < s.ways) (taken : ¬s.Vacant way) : ∃ tag, s.Holds way tag := by
  have found : s.lines[way]? = some s.lines[way] := List.getElem?_eq_getElem hway
  cases held : s.lines[way].tag with
  | none => exact absurd (vacant_iff.2 ⟨_, found, by simp [Line.isValid, held]⟩) taken
  | some tag => exact ⟨tag, holds_iff.2 ⟨_, found, held⟩⟩

/-- The first vacant way is the victim. -/
theorem victim_of_vacant (ranking : s.ranking = .ageing by_) (vacant : s.Vacant way)
    (first : ∀ earlier < way, ¬s.Vacant earlier) : s.chooseVictim.1 = way := by
  rcases vacant_iff.1 vacant with ⟨l, hl, free⟩
  rcases List.getElem?_eq_some_iff.1 hl with ⟨hway, rfl⟩
  have found : (s.lines.findIdx? fun l => !l.isValid) = some way := by
    refine List.findIdx?_eq_some_iff_getElem.2 ⟨hway, by simp [free], fun earlier before => ?_⟩
    have taken := first earlier before
    rw [vacant_iff] at taken
    have hearlier : earlier < s.lines.length := Nat.lt_trans before hway
    cases valid : s.lines[earlier].isValid with
    | true => simp
    | false => exact absurd ⟨_, List.getElem?_eq_getElem hearlier, valid⟩ taken
  have hle : way ≤ s.ways - 1 := Nat.le_sub_one_of_lt hway
  simp [chooseVictim, ranking, Ranking.victim, found, hle]

/-- In a full set the victim has the greatest usage. -/
theorem victim_of_full (ranking : s.ranking = .ageing by_) (positive : 0 < s.ways)
    (full : ∀ way, ¬s.Vacant way) :
    ∃ l, s.lines[s.chooseVictim.1]? = some l ∧ ∀ l' ∈ s.lines, l'.usage ≤ l.usage := by
  have missing : (s.lines.findIdx? fun l => !l.isValid) = none := by
    refine List.findIdx?_eq_none_iff.2 fun l hl => ?_
    rcases List.mem_iff_getElem?.1 hl with ⟨way, hway⟩
    have taken := full way
    rw [vacant_iff] at taken
    cases valid : l.isValid with
    | true => simp
    | false => exact absurd ⟨l, hway, valid⟩ taken
  rcases Ranking.oldest_greatest positive with ⟨l, hl, greatest⟩
  have hle : Ranking.oldest s.lines ≤ s.ways - 1 :=
    Nat.le_sub_one_of_lt (List.getElem?_eq_some_iff.1 hl).1
  have victim : s.chooseVictim.1 = Ranking.oldest s.lines := by
    simp [chooseVictim, ranking, Ranking.victim, missing, hle]
  exact ⟨l, by rw [victim, hl], greatest⟩

/-! ## Usages -/

/-- The usages of the ways, in order. -/
def usages (s : CacheSet) : List Nat := s.lines.map Line.usage

/-- The set has a rank for each way, and its usages are what the uses make of them. -/
structure Ranked (by_ : Ageing) (past : List Nat) (s : CacheSet) : Prop where
  ranking : s.ranking = .ageing by_
  positive : 0 < s.ways
  narrow : s.ways ≤ usageLimit
  inside : ∀ way ∈ past, way < s.ways
  usage : ∀ way < s.ways, s.usages[way]? = some (by_.usage past way)

theorem usages_length (s : CacheSet) : s.usages.length = s.ways := List.length_map ..

theorem Ranked.line_usage (h : s.Ranked by_ past) {l : Line} (hl : s.lines[way]? = some l) :
    l.usage = by_.usage past way := by
  have listed := h.usage way (List.getElem?_eq_some_iff.1 hl).1
  rw [usages, List.getElem?_map, hl] at listed
  exact Option.some.inj listed

/-- A way is ranked by its uses alone. -/
theorem Ranked.same (h : s.Ranked by_ past) (ranking : s'.ranking = s.ranking)
    (usages : s'.usages = s.usages) : s'.Ranked by_ past := by
  have ways : s'.ways = s.ways := by rw [← usages_length, usages, usages_length]
  refine ⟨ranking.trans h.ranking, ?_, ?_, ?_, ?_⟩
  · exact ways ▸ h.positive
  · exact ways ▸ h.narrow
  · exact ways ▸ h.inside
  · rw [ways, usages]
    exact h.usage

/-- A touch makes all ways older by age, unless the count is full. -/
theorem usage_maxAge_cons (uses : List Nat) (touched way : Nat) :
    Ageing.maxAge.usage (touched :: uses) way =
      if way = touched then 0 else min (Ageing.maxAge.usage uses way + 1) usageLimit := by
  by_cases here : way = touched
  · simp [Ageing.usage, here]
  · simp only [Ageing.usage, List.idxOf_cons_ne _ (Ne.symm here), here, if_false]
    omega

/-- A touch moves the ways up to the place of the touched one back by one place. -/
theorem usage_lru_cons (uses : List Nat) (touched way : Nat) :
    Ageing.lru.usage (touched :: uses) way =
      if way = touched then 0
      else if Ageing.lru.usage uses way ≤ Ageing.lru.usage uses touched then
        Ageing.lru.usage uses way + 1
      else Ageing.lru.usage uses way :=
  idxOf_recency_cons uses touched way

theorem Ranked.touchWay (h : s.Ranked by_ past) (hway : way < s.ways) :
    (s.touchWay way).Ranked by_ (way :: past) := by
  have ways : (s.touchWay way).ways = s.ways := by
    rw [← content_length, content_touchWay, content_length]
  have inside : ∀ used ∈ way :: past, used < s.ways := by
    intro used hused
    rcases List.mem_cons.1 hused with rfl | hused
    · exact hway
    · exact h.inside used hused
  refine ⟨h.ranking, ways ▸ h.positive, ways ▸ h.narrow, ways ▸ inside, ?_⟩
  rw [ways]
  intro other hother
  have found : s.lines[other]? = some s.lines[other] := List.getElem?_eq_getElem hother
  have usage := h.line_usage found
  cases by_ with
  | maxAge =>
      simp only [usages, CacheSet.touchWay, h.ranking, Ranking.touch, Ranking.touchMaxAge,
        List.getElem?_map, List.getElem?_mapIdx, found, Option.map_some, usage_maxAge_cons]
      split
      · rfl
      · rw [Line.aged, usage]
  | lru =>
      have touched : s.lines[way]? = some s.lines[way] := List.getElem?_eq_getElem hway
      have rank := h.line_usage touched
      -- The new place is a place among the ways, so that it is below the limit.
      have uncut : Ageing.lru.usage (way :: past) other < usageLimit :=
        Nat.lt_of_lt_of_le (idxOf_recency_lt inside hother) h.narrow
      rw [usage_lru_cons] at uncut ⊢
      simp only [usages, CacheSet.touchWay, h.ranking, Ranking.touch, Ranking.touchLru, touched,
        List.getElem?_map, List.getElem?_mapIdx, found, Option.map_some, usage, rank]
      by_cases here : other = way
      · simp only [here, if_true]
        rfl
      · simp only [here, if_false] at uncut ⊢
        split
        · rename_i before
          rw [if_pos before] at uncut
          simp only [Line.aged, usage]
          rw [Nat.min_eq_left (Nat.le_of_lt uncut)]
        · exact congrArg some usage

/-! ## Uses -/

/-- The way that an operation uses: the one it finds, or the one it fills. -/
def Operation.used (s : CacheSet) : Operation → Option Nat
  | .lookup _ tag _ => s.find? tag
  | .fill way tag predicted trigger =>
      match fillWay way tag predicted trigger s with
      | .ok _ _ => some way
      | .error _ _ => none
  | .touch tag => s.find? tag
  | _ => none

/-- The ways used before and by operations, latest first. -/
def uses (s : CacheSet) : List Operation → List Nat → List Nat
  | [], past => past
  | op :: ops, past => (s.perform op).uses ops ((op.used s).toList ++ past)

theorem usages_modifyLine {f : Line → Line} (s : CacheSet) (way : Nat)
    (same : ∀ l, (f l).usage = l.usage) : (s.modifyLine way f).usages = s.usages := by
  have mapped := map_modify_of_comm s.lines way Line.usage f id same
  rw [List.modify_id] at mapped
  exact mapped

theorem Ranked.perform (h : s.Ranked by_ past) (op : Operation) :
    (s.perform op).Ranked by_ ((op.used s).toList ++ past) := by
  have lt_of_find? : ∀ {tag way}, s.find? tag = some way → way < s.ways :=
    fun found => (holds_of_find? found).lt
  cases op with
  | lookup access tag block =>
      have counted : Ranked by_ past { s with reads := s.reads + 1 } := h.same rfl rfl
      have same : ({ s with reads := s.reads + 1 } : CacheSet).find? tag = s.find? tag := rfl
      simp only [CacheSet.perform, Operation.used, CacheSet.access, same]
      cases found : s.find? tag with
      | none => exact counted
      | some way =>
          have touched := counted.touchWay (lt_of_find? found)
          have marked : ∀ block, Ranked by_ (way :: past)
              ((CacheSet.touchWay { s with reads := s.reads + 1 } way).modifyLine way
                (·.touchBlock access block)) :=
            fun block => touched.same rfl (usages_modifyLine _ way fun l => l.usage_touchBlock _ _)
          dsimp only
          split
          · exact marked _
          · exact (marked _).same rfl rfl
  | chooseVictim => exact h.same rfl rfl
  | fill way tag predicted trigger =>
      simp only [CacheSet.perform, Operation.used]
      rcases s.fillWay_cases way tag predicted trigger with
        ⟨_, cause, refused⟩ | ⟨_, old, found, done⟩
      · rw [refused]
        exact h
      · rw [done]
        have replaced : Ranked by_ past (s.replaceLine way tag predicted trigger) :=
          h.same rfl (usages_modifyLine s way fun _ => rfl)
        have ways : (s.replaceLine way tag predicted trigger).ways = s.ways := List.length_modify ..
        exact replaced.touchWay (ways ▸ (List.getElem?_eq_some_iff.1 found).1)
  | markBlock way access block =>
      rcases s.perform_markBlock way access block with eq | eq
      · rw [eq]
        exact h
      · rw [eq]
        exact h.same rfl (usages_modifyLine s way fun l => l.usage_touchBlock _ _)
  | touch tag =>
      simp only [CacheSet.perform, Operation.used]
      rcases s.touchHolder_cases tag with ⟨missing, refused⟩ | ⟨way, found, done⟩
      · rw [refused, find?_eq_none_iff.2 missing]
        exact h
      · rw [done, found]
        exact h.touchWay (lt_of_find? found)
  | dropWay way =>
      rw [perform_dropWay]
      exact h.same rfl (usages_modifyLine s way Line.usage_drop)
  | drop =>
      refine h.same rfl ?_
      simp only [CacheSet.perform, CacheSet.drop, usages, List.map_map]
      exact List.map_congr_left fun l _ => l.usage_drop

/-- The set is ranked by the uses, and each way that holds a tag was used. -/
structure Recorded (by_ : Ageing) (past : List Nat) (s : CacheSet) : Prop
    extends Ranked by_ past s where
  held : ∀ way tag, s.Holds way tag → way ∈ past

theorem Recorded.perform (h : s.Recorded by_ past) (op : Operation) :
    (s.perform op).Recorded by_ ((op.used s).toList ++ past) := by
  refine ⟨h.toRanked.perform op, fun way tag held => List.mem_append.2 ?_⟩
  rcases holds_of_perform held with before | ⟨predicted, trigger, rfl, free⟩
  · exact .inr (h.held way tag before)
  · -- A way that has just been filled is the one that was used.
    rcases s.fillWay_cases way tag predicted trigger with ⟨blocked, _⟩ | ⟨_, old, _, done⟩
    · exact absurd blocked free
    · simp [Operation.used, done]

theorem Recorded.run (h : s.Recorded by_ past) (ops : List Operation) :
    (s.run ops).Recorded by_ (s.uses ops past) := by
  induction ops generalizing s past with
  | nil => exact h
  | cons op ops ih => exact ih (h.perform op)

/-- Empty sets have used no way. -/
theorem ofKind_recorded {kind : SetKind} {ageing : Ageing} {ways : Nat} (placement : Location)
    (ranking : kind.ranking ageing = .ageing by_) (bound : ways ≤ usageLimit) :
    (ofKind kind ways ageing placement).Recorded by_ [] := by
  have length : (ofKind kind ways ageing placement).ways = kind.ways ways := List.length_replicate
  have narrow : kind.ways ways ≤ usageLimit := by
    unfold SetKind.ways
    split
    · exact Nat.max_le.2 ⟨bound, by decide⟩
    · decide
  have start : ∀ way, by_.usage [] way = 0 := by cases by_ <;> exact fun _ => rfl
  refine ⟨⟨ranking, length ▸ ways_pos kind ways, length ▸ narrow, nofun, fun way hway => ?_⟩, ?_⟩
  · rw [start, usages, ofKind, List.map_replicate]
    exact List.getElem?_replicate_of_lt (length ▸ hway)
  · intro way tag held
    rcases holds_iff.1 held with ⟨l, hl, htag⟩
    rw [List.eq_of_mem_replicate (List.mem_of_getElem? hl)] at htag
    cases htag

/-- In a full set no way has a greater usage than the victim. -/
theorem Ranked.usage_victim (h : s.Ranked by_ past) (full : ∀ way, ¬s.Vacant way) :
    s.chooseVictim.1 < s.ways ∧
      ∀ way < s.ways, by_.usage past way ≤ by_.usage past s.chooseVictim.1 := by
  rcases victim_of_full h.ranking h.positive full with ⟨oldest, found, greatest⟩
  refine ⟨(List.getElem?_eq_some_iff.1 found).1, fun way hway => ?_⟩
  rw [← h.line_usage (List.getElem?_eq_getElem hway), ← h.line_usage found]
  exact greatest _ (List.getElem_mem hway)

theorem lru_ranking {kind : SetKind} {ageing : Ageing}
    (ranked : kind = .pageLru ∨ kind = .page ∧ ageing = .lru) : kind.ranking ageing = .ageing .lru := by
  rcases ranked with rfl | ⟨rfl, rfl⟩ <;> rfl

/-- Wherever operations with any arguments lead a set that is ranked by recency, the victim is the
first vacant way, or else the way used least recently: all others were used since.  The usage of a
way that was used is its place among those used, latest first, the ways that were not used come after
them, and no usage is ever cut off. -/
theorem run_recency (kind : SetKind) (ageing : Ageing) (ways : Nat) (placement : Location)
    (ops : List Operation) (ranked : kind = .pageLru ∨ kind = .page ∧ ageing = .lru)
    (bound : ways ≤ 255) :
    let start := ofKind kind ways ageing placement
    let s := start.run ops
    let uses := start.uses ops []
    let victim := s.chooseVictim.1
    (∀ way, s.Vacant way → (∀ earlier < way, ¬s.Vacant earlier) → victim = way) ∧
      ((∀ way, ¬s.Vacant way) →
        victim < s.ways ∧ victim ∈ uses ∧
          ∀ way < s.ways, way ≠ victim → uses.idxOf way < uses.idxOf victim) ∧
      (∀ rank way : Nat, (recency uses)[rank]? = some way → s.usages[way]? = some rank) ∧
      (∀ way < s.ways, way ∉ uses → s.usages[way]? = some (recency uses).length) ∧
      ∀ usage ∈ s.usages, usage < usageLimit := by
  intro start s uses victim
  have recorded : s.Recorded .lru uses :=
    (ofKind_recorded placement (lru_ranking ranked) bound).run ops
  refine ⟨fun way => victim_of_vacant recorded.ranking, fun full => ?_, fun rank way placed => ?_,
    fun way hway unused => ?_, fun usage listed => ?_⟩
  · have used : ∀ way < s.ways, way ∈ uses := by
      intro way hway
      rcases holds_of_not_vacant hway (full way) with ⟨tag, held⟩
      exact recorded.held way tag held
    rcases recorded.usage_victim full with ⟨hvictim, greatest⟩
    refine ⟨hvictim, used victim hvictim, fun way hway apart => ?_⟩
    -- Two ways that were used do not share a place.
    refine (recency_idxOf_lt_iff uses way victim).1 (Nat.lt_of_le_of_ne (greatest way hway) ?_)
    intro same
    exact apart ((List.idxOf_inj (mem_recency.2 (used way hway))).1 same)
  · have member : way ∈ recency uses := List.mem_of_getElem? placed
    rw [recorded.usage way (recorded.inside way (mem_recency.1 member)), Ageing.usage]
    rcases List.getElem?_eq_some_iff.1 placed with ⟨hrank, rfl⟩
    rw [(nodup_recency uses).idxOf_getElem rank hrank]
  · rw [recorded.usage way hway, Ageing.usage, List.idxOf_eq_length (mt mem_recency.1 unused)]
  · rcases List.mem_iff_getElem?.1 listed with ⟨way, found⟩
    have hway : way < s.ways := s.usages_length ▸ (List.getElem?_eq_some_iff.1 found).1
    rw [recorded.usage way hway] at found
    cases found
    exact Nat.lt_of_lt_of_le (idxOf_recency_lt recorded.inside hway) recorded.narrow

/-- Three ways are filled, the second one is dropped and filled again after a hit in the first one:
the third one is the victim, and the others were used after it. -/
theorem run_recency_refilled :
    let start := ofKind .pageLru 3 .maxAge ⟨0, 0, 0⟩
    let ops : List Operation :=
      [.fill 0 7 .empty 0, .fill 1 8 .empty 0, .fill 2 9 .empty 0, .dropWay 1, .lookup .read 7 4,
        .fill 1 10 .empty 0]
    let s := start.run ops
    s.tags = [some 7, some 10, some 9] ∧ s.usages = [1, 0, 2] ∧ start.uses ops [] = [1, 0, 2, 1, 0] ∧
      s.chooseVictim.1 = 2 ∧
      ∀ way < s.ways, way ≠ 2 → (start.uses ops []).idxOf way < (start.uses ops []).idxOf 2 := by
  intro start ops s
  have tags : s.tags = [some 7, some 10, some 9] := by decide +kernel
  have victim : s.chooseVictim.1 = 2 := by decide +kernel
  have full : ∀ way, ¬s.Vacant way := by
    intro way vacant
    exact absurd (List.mem_of_getElem? vacant) (tags ▸ by decide)
  have result := run_recency .pageLru .maxAge 3 ⟨0, 0, 0⟩ ops (.inl rfl) (by decide)
  refine ⟨tags, by decide +kernel, by decide +kernel, victim, ?_⟩
  rw [← victim]
  exact (result.2.1 full).2.2

end CacheSet

end StackedCache
