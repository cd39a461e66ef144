import Mathlib.Data.List.Sort
import StackedCache.Trace.Thermal

/-!
# Readings of a thermal trace

A trace has the readings of the lines of its text, by epoch, and within an epoch in the order of the
lines: `readings_ofText`.  What is due is taken out in that order, and the rest stays in it.
-/

namespace StackedCache

/-! ## Ordered pairs -/

section Pairs

variable {α : Type} {l l' : List (Nat × α)}

theorem mem_iff_of_filter_eq (same : ∀ n, l.filter (·.1 = n) = l'.filter (·.1 = n)) (a : Nat × α) :
    a ∈ l ↔ a ∈ l' := by
  have here : a ∈ l.filter (·.1 = a.1) ↔ a ∈ l'.filter (·.1 = a.1) := by rw [same]
  simpa [List.mem_filter] using here

/-- A list in the order of its numbers is known from its parts with the same number. -/
theorem eq_of_filter_eq (order : l.Pairwise fun a b => a.1 ≤ b.1)
    (order' : l'.Pairwise fun a b => a.1 ≤ b.1)
    (same : ∀ n, l.filter (·.1 = n) = l'.filter (·.1 = n)) : l = l' := by
  have mem := mem_iff_of_filter_eq same
  induction l generalizing l' with
  | nil => exact (List.eq_nil_iff_forall_not_mem.2 fun a h => by simpa using (mem a).2 h).symm
  | cons a l ih =>
      cases l' with
      | nil => simpa using (mem a).1 List.mem_cons_self
      | cons b l' =>
          rw [List.pairwise_cons] at order order'
          -- Each of the two first pairs is somewhere in the other list, and none is before it there.
          have le : b.1 ≤ a.1 := by
            rcases List.mem_cons.1 ((mem a).1 List.mem_cons_self) with rfl | later
            · exact le_refl _
            · exact order'.1 a later
          have ge : a.1 ≤ b.1 := by
            rcases List.mem_cons.1 ((mem b).2 List.mem_cons_self) with rfl | later
            · exact le_refl _
            · exact order.1 b later
          have number : a.1 = b.1 := Nat.le_antisymm ge le
          have first : a = b ∧ l.filter (·.1 = b.1) = l'.filter (·.1 = b.1) := by
            have heads := same b.1
            simpa [List.filter_cons, number] using heads
          rcases first with ⟨rfl, rest⟩
          have tails : ∀ n, l.filter (·.1 = n) = l'.filter (·.1 = n) := by
            intro n
            by_cases here : a.1 = n
            · rw [← here]
              exact rest
            · have both := same n
              simpa [List.filter_cons, here] using both
          rw [ih order.2 order'.2 tails (mem_iff_of_filter_eq tails)]

end Pairs

/-- What comes first, and then what comes next of the rest, if nothing that comes first is behind the
rest. -/
theorem filter_append_filter {α : Type} {p q : α → Bool} {l : List α}
    (order : l.Pairwise fun a b => p b = true → p a = true) (imp : ∀ a, p a = true → q a = true) :
    l.filter p ++ (l.filter fun a => !p a).filter q = l.filter q := by
  induction l with
  | nil => rfl
  | cons a l ih =>
      rw [List.pairwise_cons] at order
      cases first : p a with
      | true =>
          simp only [List.filter_cons, first, imp a first, if_true, Bool.not_true,
            Bool.false_eq_true, if_false, List.cons_append]
          rw [ih order.2]
      | false =>
          -- As nothing that comes first is behind `a`, there is none of it in the list.
          have none_left : (a :: l).filter p = [] := by
            refine List.filter_eq_nil_iff.2 fun b member here => ?_
            rcases List.mem_cons.1 member with rfl | later
            · rw [first] at here
              cases here
            · rw [order.1 b later here] at first
              cases first
          have all_left : (a :: l).filter (fun a => !p a) = a :: l := by
            refine List.filter_eq_self.2 fun b member => ?_
            have out := List.filter_eq_nil_iff.1 none_left b member
            rw [Bool.not_eq_true] at out
            rw [out]
            rfl
          rw [none_left, all_left]
          rfl

namespace Reading

/-- The reading on a numbered line with its epoch, if the line has one. -/
def onLine? (line : List Char × Nat) : Option (Nat × Reading) := (ofLine line.2 line.1).toOption.join

/-- The readings on the lines of a text, in the order of the lines. -/
def allOf (text : List Char) : List (Nat × Reading) :=
  ((Text.lines text).zipIdx 1).filterMap onLine?

/-- The order of epochs; readings of one epoch stay as they come. -/
def byEpoch (rs : List (Nat × Reading)) : List (Nat × Reading) :=
  rs.insertionSort fun a b => a.1 ≤ b.1

/-- The reading is for an epoch up to the last one that is closed, if any is; but one for the end of
epochs is never due. -/
def dueBy (last? : Option Nat) (r : Nat × Reading) : Bool :=
  last?.any fun last => r.1 ≤ last && r.1 < ThermalTrace.endOfEpochs

variable {rs : List (Nat × Reading)}

theorem byEpoch_pairwise (rs : List (Nat × Reading)) :
    (byEpoch rs).Pairwise fun a b => a.1 ≤ b.1 :=
  List.pairwise_insertionSort (fun a b : Nat × Reading => a.1 ≤ b.1) rs

/-- The readings of an epoch keep their order. -/
theorem filter_byEpoch (rs : List (Nat × Reading)) (epoch : Nat) :
    (byEpoch rs).filter (·.1 = epoch) = rs.filter (·.1 = epoch) := by
  have alike : (rs.filter (·.1 = epoch)).Pairwise fun a b => a.1 ≤ b.1 := by
    refine List.pairwise_of_forall_mem_list fun a ha b hb => ?_
    have here := (List.mem_filter.1 ha).2
    have there := (List.mem_filter.1 hb).2
    simp only [decide_eq_true_eq] at here there
    omega
  have stable : (rs.filter (·.1 = epoch)).Sublist ((byEpoch rs).filter (·.1 = epoch)) := by
    have kept := (List.sublist_insertionSort alike List.filter_sublist).filter (·.1 = epoch)
    rw [List.filter_filter] at kept
    simpa only [Bool.and_self, byEpoch] using kept
  -- A sublist of the same length is the whole list.
  refine (stable.eq_of_length ?_).symm
  rw [← List.countP_eq_length_filter, ← List.countP_eq_length_filter]
  exact ((List.perm_insertionSort _ rs).countP_eq _).symm

/-- What was due earlier and what is due of the rest is all that is due. -/
theorem filter_dueBy (order : rs.Pairwise fun a b => a.1 ≤ b.1) {last? : Option Nat} {epoch : Nat}
    (later : ∀ last ∈ last?, last ≤ epoch) :
    rs.filter (dueBy last?) ++ (rs.filter fun r => !dueBy last? r).filter (dueBy (some epoch)) =
      rs.filter (dueBy (some epoch)) := by
  refine filter_append_filter (order.imp fun {a b} le => ?_) fun a => ?_
  · cases last? with
    | none => exact id
    | some last =>
        simp only [dueBy, Option.any_some, Bool.and_eq_true, decide_eq_true_eq]
        omega
  · cases last? with
    | none => simp [dueBy]
    | some last =>
        have le := later last rfl
        simp only [dueBy, Option.any_some, Bool.and_eq_true, decide_eq_true_eq]
        omega

theorem filter_not_dueBy {last? : Option Nat} {epoch : Nat} (later : ∀ last ∈ last?, last ≤ epoch)
    (rs : List (Nat × Reading)) :
    ((rs.filter fun r => !dueBy last? r).filter fun r => !dueBy (some epoch) r) =
      rs.filter fun r => !dueBy (some epoch) r := by
  rw [List.filter_filter]
  refine List.filter_congr fun r _ => ?_
  cases last? with
  | none => simp [dueBy]
  | some last =>
      have le := later last rfl
      simp only [dueBy, Option.any_some]
      grind

end Reading

namespace ThermalTrace

open Reading (allOf byEpoch dueBy)

variable {t t' : ThermalTrace} {text : List Char}

/-- The readings of a trace with their epochs, in the order in which they are taken out. -/
def readings (t : ThermalTrace) : List (Nat × Reading) :=
  t.epochs.flatMap fun entry => entry.2.map (entry.1, ·)

theorem readings_pairwise (ascending : t.epochs.Ascending) :
    t.readings.Pairwise fun a b => a.1 ≤ b.1 := by
  unfold readings
  rw [List.pairwise_flatMap]
  have keys := List.pairwise_map.1 ascending
  refine ⟨fun entry _ => ?_, keys.imp fun {a b} lt x hx y hy => ?_⟩
  · rw [List.pairwise_map]
    exact List.pairwise_of_forall fun _ _ => le_refl _
  · rcases List.mem_map.1 hx with ⟨_, _, rfl⟩
    rcases List.mem_map.1 hy with ⟨_, _, rfl⟩
    exact Nat.le_of_lt lt

theorem filter_readings (ascending : t.epochs.Ascending) (epoch : Nat) :
    t.readings.filter (·.1 = epoch) = ((t.epochs.find? epoch).getD []).map (epoch, ·) := by
  rcases t with ⟨table⟩
  simp only [readings]
  induction table with
  | nil => rfl
  | cons entry table ih =>
      rcases entry with ⟨k, rs⟩
      have keys := List.pairwise_cons.1 (show List.Pairwise _ (k :: table.map Prod.fst) from ascending)
      have rest := ih keys.2
      rw [List.flatMap_cons, List.filter_append, rest, Table.find?]
      by_cases here : epoch = k
      · -- Behind its entry there is none for the epoch.
        subst here
        have absent : Table.find? table epoch = none := by
          cases found : Table.find? table epoch with
          | none => rfl
          | some rs' =>
              have lt := keys.1 epoch (List.mem_map_of_mem (Table.mem_of_find? found))
              exact absurd lt (Nat.lt_irrefl epoch)
        simp [absent, List.filter_map, Function.comp_def]
      · have there : k ≠ epoch := fun same => here same.symm
        simp [here, there, List.filter_map, Function.comp_def]

/-! ## Texts -/

/-- A line adds its reading behind those of the same epoch. -/
theorem addLine_readings {line : List Char × Nat} (ascending : t.epochs.Ascending)
    (added : t.addLine line = .ok t') :
    t'.epochs.Ascending ∧ ∀ epoch, t'.readings.filter (·.1 = epoch) =
      t.readings.filter (·.1 = epoch) ++
        (Reading.onLine? line).toList.filter (·.1 = epoch) := by
  unfold addLine at added
  cases read : Reading.ofLine line.2 line.1 with
  | error cause =>
      rw [read] at added
      cases added
  | ok found =>
      rw [read] at added
      cases found with
      | none =>
          cases added
          exact ⟨ascending, fun epoch => by simp [Reading.onLine?, read, Except.toOption]⟩
      | some reading =>
          rcases reading with ⟨own, r⟩
          cases added
          have after : (t.add own r).epochs.Ascending := ascending.insert _ _
          refine ⟨after, fun epoch => ?_⟩
          -- Of the table only the entry under the line's own epoch has changed.
          rw [filter_readings after, filter_readings ascending]
          simp only [add, Table.find?_insert]
          by_cases here : epoch = own
          · subst here
            simp [Reading.onLine?, read, Except.toOption]
          · have there : own ≠ epoch := fun same => here same.symm
            simp [Reading.onLine?, read, Except.toOption, here, there]

theorem foldlM_addLine_readings {lines : List (List Char × Nat)} (ascending : t.epochs.Ascending)
    (added : lines.foldlM addLine t = .ok t') :
    t'.epochs.Ascending ∧ ∀ epoch, t'.readings.filter (·.1 = epoch) =
      t.readings.filter (·.1 = epoch) ++
        (lines.filterMap Reading.onLine?).filter (·.1 = epoch) := by
  induction lines generalizing t with
  | nil =>
      cases added
      exact ⟨ascending, fun epoch => (List.append_nil _).symm⟩
  | cons line lines ih =>
      rw [List.foldlM_cons] at added
      cases first : t.addLine line with
      | error cause =>
          rw [first] at added
          cases added
      | ok t₁ =>
          rw [first] at added
          rcases addLine_readings ascending first with ⟨ascending₁, one⟩
          rcases ih ascending₁ added with ⟨ascending', rest⟩
          refine ⟨ascending', fun epoch => ?_⟩
          rw [rest epoch, one epoch, List.append_assoc, ← List.filter_append]
          congr 2
          cases found : Reading.onLine? line <;> simp [found]

/-- The readings of a text, by epoch and line. -/
theorem readings_ofText (parsed : ofText text = .ok t) : t.readings = byEpoch (allOf text) := by
  have empty : Table.Ascending (α := List Reading) [] := List.Pairwise.nil
  rcases foldlM_addLine_readings (t := {}) empty parsed with ⟨ascending, added⟩
  refine eq_of_filter_eq (readings_pairwise ascending) (Reading.byEpoch_pairwise _) fun epoch => ?_
  rw [added epoch, Reading.filter_byEpoch]
  rfl

/-! ## Taking readings out -/

/-- The readings of an epoch are all kept or all left out. -/
theorem readings_filter (t : ThermalTrace) (keep : Nat → Bool) :
    readings ⟨t.epochs.filter fun entry => keep entry.1⟩ = t.readings.filter fun r => keep r.1 := by
  rcases t with ⟨table⟩
  simp only [readings]
  induction table with
  | nil => rfl
  | cons entry table ih =>
      rw [List.flatMap_cons, List.filter_append, ← ih]
      cases kept : keep entry.1 <;> simp [kept, List.filter_map, Function.comp_def]

theorem map_snd_readings (t : ThermalTrace) :
    t.readings.map Prod.snd = t.epochs.flatMap Prod.snd := by
  simp [readings, List.map_flatMap, Function.comp_def]

theorem takeThrough_readings (t : ThermalTrace) (epoch : Nat) :
    (t.takeThrough epoch).1 = (t.readings.filter (dueBy (some epoch))).map Prod.snd ∧
      (t.takeThrough epoch).2.readings = t.readings.filter fun r => !dueBy (some epoch) r := by
  let reached (n : Nat) : Bool := n ≤ epoch && n < endOfEpochs
  constructor
  · have taken := t.readings_filter reached
    calc (t.takeThrough epoch).1
        = (readings ⟨t.epochs.filter fun entry => reached entry.1⟩).map Prod.snd :=
          (map_snd_readings _).symm
      _ = (t.readings.filter (dueBy (some epoch))).map Prod.snd := by rw [taken]; rfl
  · exact t.readings_filter fun n => !reached n

end ThermalTrace

end StackedCache
