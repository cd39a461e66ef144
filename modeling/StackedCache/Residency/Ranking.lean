import StackedCache.Residency.Line
import StackedCache.Settings.Check

/-!
# Choosing a victim

A `Ranking` says how the ways of a set age and which one goes next.  All its state is the usage
number of each line, which stops at `usageLimit`.

The victim is the first way without a tag, or else the first of those used longest ago.
-/

namespace StackedCache

/-- How the ways of a set are ranked. -/
inductive Ranking where
  /-- There is one way, and nothing to choose. -/
  | direct
  /-- By age or by recency. -/
  | ageing (by_ : Ageing)
  deriving DecidableEq, Repr, Inhabited

/-- One step older. -/
def Line.aged (l : Line) : Line := { l with usage := min (l.usage + 1) usageLimit }

/-- As if just used. -/
def Line.young (l : Line) : Line := { l with usage := 0 }

namespace Ranking

/-- The touched way is as good as new, and all others grow older. -/
def touchMaxAge (lines : List Line) (way : Nat) : List Line :=
  lines.mapIdx fun i l => if i = way then l.young else l.aged

/-- The touched way comes first, and those that were not behind it move back by one. -/
def touchLru (lines : List Line) (way : Nat) : List Line :=
  match lines[way]? with
  | none => lines
  | some touched =>
      lines.mapIdx fun i l =>
        if i = way then l.young else if l.usage ≤ touched.usage then l.aged else l

/-- The lines after a touch of a way, which need not exist. -/
def touch : Ranking → List Line → Nat → List Line
  | direct, lines, _ => lines
  | ageing .maxAge, lines, way => touchMaxAge lines way
  | ageing .lru, lines, way => touchLru lines way

/-- The first way with the greatest usage, given the best among the ways before `way`. -/
def oldestFrom : List Line → Nat → Nat → Nat → Nat
  | [], _, _, best => best
  | l :: lines, way, usage, best =>
      if usage < l.usage then oldestFrom lines (way + 1) l.usage way
      else oldestFrom lines (way + 1) usage best

/-- The first way with the greatest usage. -/
def oldest : List Line → Nat
  | [] => 0
  | l :: lines => oldestFrom lines 1 l.usage 0

/-- The way to give up. -/
def victim : Ranking → List Line → Nat
  | direct, _ => 0
  | ageing _, lines => (lines.findIdx? fun l => !l.isValid).getD (oldest lines)

/-- A touch changes nothing but how the ways are ranked. -/
theorem map_young_touch (r : Ranking) (lines : List Line) (way : Nat) :
    (r.touch lines way).map Line.young = lines.map Line.young := by
  have indexed : ∀ f : Nat → Line → Line, (∀ i l, (f i l).young = l.young) →
      (lines.mapIdx f).map Line.young = lines.map Line.young := by
    intro f hf
    refine List.ext_getElem? fun i => ?_
    simp only [List.getElem?_map, List.getElem?_mapIdx, Option.map_map]
    cases lines[i]? with
    | none => rfl
    | some l => simp [hf]
  cases r with
  | direct => rfl
  | ageing by_ =>
      cases by_ with
      | maxAge =>
          refine indexed _ fun i l => ?_
          split <;> rfl
      | lru =>
          simp only [touch, touchLru]
          split
          · rfl
          · refine indexed _ fun i l => ?_
            split
            · rfl
            · split <;> rfl

end Ranking

end StackedCache
