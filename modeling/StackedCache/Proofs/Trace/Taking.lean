import Mathlib.Data.List.Induction
import StackedCache.Proofs.Trace.Lines
import StackedCache.Proofs.Trace.Thermal

/-!
# Taking readings out of a trace

A text is refused for its first malformed line, and otherwise its readings are taken out epoch after
epoch.  Whatever the epochs asked for, every reading is taken by the first call that asks for its
epoch or a later one, in the order of epochs and lines; only readings for the very last epoch that
can be written are never taken.  `ThermalTrace.ofText_serves` is the whole of it.
-/

namespace StackedCache

namespace ThermalTrace

open Reading (Malformed allOf byEpoch dueBy)

variable {t : ThermalTrace} {text : List Char} {fault : TraceFault} {epochs : List Nat}
  {epoch n : Nat}

/-! ## Refused texts -/

/-- The first malformed line is the one behind `n` others, and it is refused with the fault. -/
structure FirstMalformed (lines : List (List Char)) (n : Nat) (fault : TraceFault) : Prop where
  here : ∃ line, lines[n]? = some line ∧ Malformed line ∧
    Reading.ofLine (n + 1) line = .error fault
  number : fault.line = n + 1
  first : ∀ m < n, ∀ line, lines[m]? = some line → ¬Malformed line

/-- Lines are read until one is refused, whatever has been read before. -/
theorem foldlM_addLine_eq_error_iff {lines : List (List Char × Nat)} :
    lines.foldlM addLine t = .error fault ↔
      ∃ n : Nat, (∃ line number, lines[n]? = some (line, number) ∧
          Reading.ofLine number line = .error fault) ∧
        ∀ m < n, ∀ line number, lines[m]? = some (line, number) → ¬Malformed line := by
  induction lines generalizing t with
  | nil =>
      refine ⟨nofun, ?_⟩
      rintro ⟨n, ⟨line, number, ⟨⟩, _⟩, _⟩
  | cons next lines ih =>
      rcases next with ⟨line, number⟩
      rw [List.foldlM_cons, addLine]
      cases read : Reading.ofLine number line with
      | error fault' =>
          -- No line is before this one, and every later one comes too late.
          constructor
          · rintro ⟨⟩
            exact ⟨0, ⟨line, number, rfl, read⟩, nofun⟩
          · rintro ⟨n, ⟨line', number', here, refused⟩, first⟩
            cases n with
            | zero =>
                cases here
                rw [read] at refused
                cases refused
                rfl
            | succ n =>
                have malformed := (Reading.malformed_iff number).2 ⟨fault', read⟩
                exact absurd malformed (first 0 (Nat.succ_pos n) line number rfl)
      | ok found =>
          -- The first refusal is among the other lines, one place further on than they count.
          refine ih.trans ⟨?_, ?_⟩
          · rintro ⟨n, here, first⟩
            refine ⟨n + 1, here, fun m before line' number' earlier => ?_⟩
            cases m with
            | zero =>
                cases earlier
                exact Reading.not_malformed read
            | succ m => exact first m (Nat.lt_of_succ_lt_succ before) line' number' earlier
          · rintro ⟨n, here, first⟩
            cases n with
            | zero =>
                rcases here with ⟨line', number', ⟨⟩, refused⟩
                rw [read] at refused
                cases refused
            | succ n =>
                exact ⟨n, here, fun m before => first (m + 1) (Nat.succ_lt_succ before)⟩

/-- Lines are numbered from one. -/
theorem getElem?_numbered {lines : List (List Char)} {line : List Char} {number : Nat} :
    (lines.zipIdx 1)[n]? = some (line, number) ↔ lines[n]? = some line ∧ number = n + 1 := by
  rw [List.getElem?_zipIdx, Option.map_eq_some_iff, Nat.add_comm 1 n]
  constructor
  · rintro ⟨_, here, ⟨⟩⟩
    exact ⟨here, rfl⟩
  · rintro ⟨here, rfl⟩
    exact ⟨line, here, rfl⟩

/-- A text is refused for its first malformed line. -/
theorem ofText_eq_error_iff :
    ofText text = .error fault ↔ ∃ n, FirstMalformed (Text.lines text) n fault := by
  rw [ofText, foldlM_addLine_eq_error_iff]
  simp only [getElem?_numbered]
  constructor
  · rintro ⟨n, ⟨line, _, ⟨here, rfl⟩, refused⟩, first⟩
    have malformed := (Reading.malformed_iff (n + 1)).2 ⟨fault, refused⟩
    exact ⟨n, ⟨line, here, malformed, refused⟩, Reading.line_of_ofLine refused,
      fun m before line' earlier => first m before line' _ ⟨earlier, rfl⟩⟩
  · rintro ⟨n, ⟨line, here, _, refused⟩, _, first⟩
    exact ⟨n, ⟨line, _, ⟨here, rfl⟩, refused⟩, fun m before line' _ earlier =>
      first m before line' earlier.1⟩

/-- A text is refused if one of its lines is malformed. -/
theorem ofText_refused_iff :
    (∃ fault, ofText text = .error fault) ↔ ∃ line ∈ Text.lines text, Malformed line := by
  constructor
  · rintro ⟨fault, refused⟩
    rcases ofText_eq_error_iff.1 refused with ⟨n, first⟩
    rcases first.here with ⟨line, here, malformed, _⟩
    exact ⟨line, List.mem_of_getElem? here, malformed⟩
  · rintro ⟨line, member, malformed⟩
    classical
    -- Of the malformed lines, the first one is what the text is refused for.
    have some_line : ∃ n : Nat, ∃ line, (Text.lines text)[n]? = some line ∧ Malformed line := by
      rcases List.mem_iff_getElem?.1 member with ⟨n, here⟩
      exact ⟨n, line, here, malformed⟩
    rcases Nat.find_spec some_line with ⟨line', here, malformed'⟩
    rcases (Reading.malformed_iff (Nat.find some_line + 1)).1 malformed' with ⟨fault, refused⟩
    refine ⟨fault, ofText_eq_error_iff.2 ⟨Nat.find some_line, ⟨line', here, malformed', refused⟩,
      Reading.line_of_ofLine refused, fun m before line earlier bad => ?_⟩⟩
    exact Nat.find_min some_line before ⟨line, earlier, bad⟩

/-! ## Calls -/

/-- Takes readings out for one epoch after the other. -/
def takeAll (t : ThermalTrace) : List Nat → List (List Reading) × ThermalTrace
  | [] => ([], t)
  | epoch :: epochs =>
      let first := t.takeThrough epoch
      let rest := first.2.takeAll epochs
      (first.1 :: rest.1, rest.2)

/-- None of the epochs has made the reading due. -/
def leftBy (epochs : List Nat) (r : Nat × Reading) : Bool :=
  epochs.all fun epoch => !dueBy (some epoch) r

theorem takeAll_length (t : ThermalTrace) (epochs : List Nat) :
    (t.takeAll epochs).1.length = epochs.length := by
  induction epochs generalizing t with
  | nil => rfl
  | cons epoch epochs ih => exact congrArg (· + 1) (ih _)

/-- What no call has taken is left. -/
theorem takeAll_readings (t : ThermalTrace) (epochs : List Nat) :
    (t.takeAll epochs).2.readings = t.readings.filter (leftBy epochs) := by
  induction epochs generalizing t with
  | nil => exact (List.filter_eq_self.2 fun _ _ => rfl).symm
  | cons epoch epochs ih =>
      have first := (t.takeThrough_readings epoch).2
      rw [takeAll, ih, first, List.filter_filter]
      refine List.filter_congr fun r _ => ?_
      rw [Bool.and_comm]
      rfl

/-- A call takes what is due and was not taken before. -/
theorem getElem?_takeAll (t : ThermalTrace) (here : epochs[n]? = some epoch) :
    (t.takeAll epochs).1[n]? = some ((t.readings.filter fun r =>
      dueBy (some epoch) r && leftBy (epochs.take n) r).map Prod.snd) := by
  induction n generalizing t epochs with
  | zero =>
      cases epochs with
      | nil => cases here
      | cons first epochs =>
          cases here
          rw [takeAll, List.getElem?_cons_zero, (t.takeThrough_readings epoch).1]
          simp [leftBy]
  | succ n ih =>
      cases epochs with
      | nil => cases here
      | cons first epochs =>
          rw [takeAll, List.getElem?_cons_succ, ih _ here, (t.takeThrough_readings first).2,
            List.filter_filter]
          refine congrArg (fun rs => some (List.map Prod.snd rs)) (List.filter_congr fun r _ => ?_)
          rw [List.take_succ_cons, leftBy, leftBy, List.all_cons, Bool.and_assoc,
            Bool.and_comm (List.all _ _)]

theorem takeAll_concat (t : ThermalTrace) (epochs : List Nat) (epoch : Nat) :
    t.takeAll (epochs ++ [epoch]) =
      ((t.takeAll epochs).1 ++ [((t.takeAll epochs).2.takeThrough epoch).1],
        ((t.takeAll epochs).2.takeThrough epoch).2) := by
  induction epochs generalizing t with
  | nil => rfl
  | cons first epochs ih =>
      rw [List.cons_append, takeAll, ih]
      rfl

/-- Calls for one epoch after the other take the readings in their order. -/
theorem takeAll_ascending (order : t.readings.Pairwise fun a b => a.1 ≤ b.1)
    (ascending : epochs.Pairwise (· ≤ ·)) :
    (t.takeAll epochs).1.flatten = (t.readings.filter (dueBy epochs.getLast?)).map Prod.snd ∧
      (t.takeAll epochs).2.readings = t.readings.filter fun r => !dueBy epochs.getLast? r := by
  -- The last epoch makes due whatever the others have, so the induction is on the last call.
  induction epochs using List.reverseRecOn with
  | nil =>
      have nothing : t.readings.filter (dueBy none) = [] :=
        List.filter_eq_nil_iff.2 fun _ _ => Bool.false_ne_true
      have everything : (t.readings.filter fun r => !dueBy none r) = t.readings :=
        List.filter_eq_self.2 fun _ _ => rfl
      exact ⟨(congrArg (List.map Prod.snd) nothing).symm, everything.symm⟩
  | append_singleton epochs epoch ih =>
      rw [List.pairwise_append] at ascending
      have later : ∀ last ∈ epochs.getLast?, last ≤ epoch := fun last member =>
        ascending.2.2 last (List.mem_of_getLast? member) epoch (List.mem_singleton_self epoch)
      rcases ih ascending.1 with ⟨taken, left⟩
      rcases (t.takeAll epochs).2.takeThrough_readings epoch with ⟨now, rest⟩
      rw [takeAll_concat, List.getLast?_concat]
      constructor
      · rw [List.flatten_append, List.flatten_singleton, taken, now, left, ← List.map_append,
          Reading.filter_dueBy order later]
      · rw [rest, left, Reading.filter_not_dueBy later]

/-! ## Texts and calls -/

/-- Whatever the epochs asked for, each call takes what is due of the file and was not taken before,
in the order of the file, and what no call takes is left.  If the epochs ascend, the calls together
take what is due by the last of them. -/
structure Serves (t : ThermalTrace) (file : List (Nat × Reading)) : Prop where
  length : ∀ epochs, (t.takeAll epochs).1.length = epochs.length
  call : ∀ (epochs : List Nat) (n epoch : Nat), epochs[n]? = some epoch →
    (t.takeAll epochs).1[n]? = some ((file.filter fun r =>
      dueBy (some epoch) r && leftBy (epochs.take n) r).map Prod.snd)
  left : ∀ epochs, (t.takeAll epochs).2.readings = file.filter (leftBy epochs)
  ascending : ∀ epochs : List Nat, epochs.Pairwise (· ≤ ·) →
    (t.takeAll epochs).1.flatten = (file.filter (dueBy epochs.getLast?)).map Prod.snd

theorem serves (order : t.readings.Pairwise fun a b => a.1 ≤ b.1) : t.Serves t.readings where
  length := t.takeAll_length
  call := fun _ _ _ here => t.getElem?_takeAll here
  left := t.takeAll_readings
  ascending := fun _ ascending => (takeAll_ascending order ascending).1

/-- A text is refused if one of its lines is malformed, and then for the first such line and with
its number.  Otherwise its readings are served by epoch and, within an epoch, by line, whatever
epochs are asked for in whatever order; a reading is due at its epoch, except that one for the end of
epochs is never due. -/
theorem ofText_serves (text : List Char) :
    let file := byEpoch (allOf text)
    (∀ fault, ofText text = .error fault ↔ ∃ n, FirstMalformed (Text.lines text) n fault) ∧
      ((∃ fault, ofText text = .error fault) ↔ ∃ line ∈ Text.lines text, Malformed line) ∧
      (file.Pairwise fun a b => a.1 ≤ b.1) ∧
      (∀ epoch, file.filter (·.1 = epoch) = (allOf text).filter (·.1 = epoch)) ∧
      ∀ t, ofText text = .ok t → t.Serves file := by
  intro file
  refine ⟨fun fault => ofText_eq_error_iff, ofText_refused_iff, Reading.byEpoch_pairwise _,
    Reading.filter_byEpoch _, fun t parsed => ?_⟩
  have readings : t.readings = file := readings_ofText parsed
  have served := t.serves (readings ▸ Reading.byEpoch_pairwise _)
  rwa [readings] at served

/-- Epochs that go back, in the text as well as in the calls. -/
theorem ofText_serves_twoEpochs :
    let text := "9 0 0 70\n3 0 1 81\n9 0 1 72\n3 0 0 82\n".toList
    ∃ t, ofText text = .ok t ∧
      (t.takeAll [3, 9]).1.flatten.map Reading.place = [⟨0, 1⟩, ⟨0, 0⟩, ⟨0, 0⟩, ⟨0, 1⟩] ∧
      (t.takeAll [9, 3]).1[1]?.map List.length = some 0 := by
  intro text
  have readable : (ofText text).toOption.isSome = true := by decide +kernel
  cases parsed : ofText text with
  | error cause =>
      rw [parsed] at readable
      cases readable
  | ok t =>
      rcases ofText_serves text with ⟨_, _, _, _, serves⟩
      have served := serves t parsed
      refine ⟨t, rfl, ?_, ?_⟩
      · rw [served.ascending [3, 9] (by decide)]
        decide +kernel
      · rw [served.call [9, 3] 1 3 rfl]
        decide +kernel

/-- A reading for the end of epochs is not taken, even if that epoch is asked for. -/
theorem endOfEpochs_left :
    let text := "18446744073709551615 0 0 6".toList
    ∃ t, ofText text = .ok t ∧ (allOf text).map Prod.fst = [2 ^ 64 - 1] ∧
      (t.takeThrough (2 ^ 64 - 1)).1.length = 0 ∧
      (t.takeThrough (2 ^ 64 - 1)).2.readings.map Prod.fst = [2 ^ 64 - 1] := by
  intro text
  have readable : (ofText text).toOption.isSome = true := by decide +kernel
  cases parsed : ofText text with
  | error cause =>
      rw [parsed] at readable
      cases readable
  | ok t =>
      rcases t.takeThrough_readings (2 ^ 64 - 1) with ⟨taken, left⟩
      rw [readings_ofText parsed] at taken left
      refine ⟨t, rfl, by decide +kernel, ?_, ?_⟩
      · rw [taken]
        decide +kernel
      · rw [left]
        decide +kernel

end ThermalTrace

end StackedCache
