import Mathlib.Data.List.Induction
import StackedCache.Proofs.Relocation.Safety
import StackedCache.Proofs.Trace.Thermal
import StackedCache.Replay.Basic

/-!
# The schedule of a replay

The history of a replay is what it does to the model: it takes readings, lets epochs pass and serves
requests.  Whatever the times of the requests, epochs pass in order, and only those are skipped that
a long gap makes too old; and before an epoch passes, all readings that are due by then have been
taken, each of them once, and no others: `run_schedule`.
-/

namespace StackedCache

/-! ## The clock -/

namespace EpochClock

variable {c : EpochClock} {timeNs e : Nat}

/-- The last epoch that is closed, if any is; epochs are counted from 1. -/
def last? (c : EpochClock) : Option Nat := if c.closed = 0 then none else some c.closed

/-- The clock stands still, or it closes epochs and runs all or the latest of them. -/
theorem advance_cases (c : EpochClock) (timeNs : Nat) :
    (timeNs / c.epochNs ≤ c.closed ∧ c.advance timeNs = ([], c)) ∨
      ∃ first n, timeNs / c.epochNs = first + n ∧ c.closed < first ∧ n < catchUpEpochs ∧
        (first = c.closed + 1 ∨ n + 1 = catchUpEpochs) ∧
        c.advance timeNs = (List.range' first (n + 1), { c with closed := first + n }) := by
  -- The first epoch to run comes after the last closed one, or is the oldest that is caught up with.
  by_cases passed : timeNs / c.epochNs ≤ c.closed
  · exact .inl ⟨passed, if_pos passed⟩
  · right
    let first := c.firstToRun (timeNs / c.epochNs)
    have start : first = max (timeNs / c.epochNs - 63) (c.closed + 1) := rfl
    have last : timeNs / c.epochNs = first + (timeNs / c.epochNs - first) := by omega
    have count : timeNs / c.epochNs + 1 - first = timeNs / c.epochNs - first + 1 := by omega
    have advanced : c.advance timeNs = (List.range' first (timeNs / c.epochNs + 1 - first),
        { c with closed := timeNs / c.epochNs }) := if_neg passed
    refine ⟨first, timeNs / c.epochNs - first, last, by omega, ?_, ?_, ?_⟩
    · simp only [catchUpEpochs]
      omega
    · simp only [catchUpEpochs]
      omega
    · rw [← last, ← count, advanced]

theorem advance_epochNs (c : EpochClock) (timeNs : Nat) :
    (c.advance timeNs).2.epochNs = c.epochNs := by
  rcases c.advance_cases timeNs with ⟨_, same⟩ | ⟨first, n, _, _, _, _, advanced⟩
  · rw [same]
  · rw [advanced]

/-- A time that has passed already closes nothing. -/
theorem advance_closed (c : EpochClock) (timeNs : Nat) :
    (c.advance timeNs).2.closed = max c.closed (timeNs / c.epochNs) := by
  rcases c.advance_cases timeNs with ⟨passed, same⟩ | ⟨first, n, last, later, _, _, advanced⟩
  · rw [same, Nat.max_eq_left passed]
  · rw [advanced, last, Nat.max_eq_right (by omega)]

/-- Of the epochs that are closed, the latest ones are run. -/
theorem mem_advance : e ∈ (c.advance timeNs).1 ↔
    c.closed < e ∧ e ≤ timeNs / c.epochNs ∧ timeNs / c.epochNs < e + catchUpEpochs := by
  rcases c.advance_cases timeNs with ⟨passed, same⟩ | ⟨first, n, last, later, _, start, advanced⟩
  · rw [same]
    simp only [List.not_mem_nil, false_iff]
    omega
  · rw [advanced, last, List.mem_range'_1]
    omega

theorem advance_pairwise (c : EpochClock) (timeNs : Nat) :
    (c.advance timeNs).1.Pairwise (· < ·) := by
  rcases c.advance_cases timeNs with ⟨_, same⟩ | ⟨first, n, _, _, _, _, advanced⟩
  · rw [same]
    exact List.Pairwise.nil
  · rw [advanced]
    exact List.pairwise_lt_range'

theorem advance_length (c : EpochClock) (timeNs : Nat) :
    (c.advance timeNs).1.length ≤ catchUpEpochs := by
  rcases c.advance_cases timeNs with ⟨_, same⟩ | ⟨first, n, _, _, few, _, advanced⟩
  · rw [same]
    exact Nat.zero_le _
  · rw [advanced, List.length_range']
    exact few

/-- The last epoch that is run is the last one that is closed. -/
theorem advance_last? (c : EpochClock) (timeNs : Nat) :
    (c.advance timeNs).1.getLast?.or c.last? = (c.advance timeNs).2.last? := by
  rcases c.advance_cases timeNs with ⟨_, same⟩ | ⟨first, n, _, later, _, _, advanced⟩
  · rw [same]
    rfl
  · have closed : first + n ≠ 0 := by omega
    rw [advanced, List.range'_1_concat, List.getLast?_concat]
    simp only [last?, closed, if_false, Option.some_or]

end EpochClock

namespace Replay

/-! ## Histories -/

/-- What a replay does to the model. -/
inductive Event where
  | reading (r : Reading)
  | pass (epoch : Nat)
  | request (q : TraceRequest)

namespace Event

def perform (m : Model) : Event → Model
  | reading r => m.takeReading r
  | pass _ => m.runEpoch.2
  | request q => (m.request (.ofNs q.timeNs) q.size q.addr q.access).2

def reading? : Event → Option Reading
  | reading r => some r
  | _ => none

def pass? : Event → Option Nat
  | pass epoch => some epoch
  | _ => none

def request? : Event → Option TraceRequest
  | request q => some q
  | _ => none

end Event

/-- The readings taken in a history. -/
def taken (h : List Event) : List Reading := h.filterMap Event.reading?

/-- The epochs that pass in a history. -/
def passes (h : List Event) : List Nat := h.filterMap Event.pass?

/-- The requests served in a history. -/
def requests (h : List Event) : List TraceRequest := h.filterMap Event.request?

/-- Before an epoch passes, its readings are taken. -/
def closing (t : ThermalTrace) (epoch : Nat) : List Event :=
  (t.takeThrough epoch).1.map .reading ++ [.pass epoch]

def closings (t : ThermalTrace) : List Nat → List Event
  | [] => []
  | epoch :: epochs => closing t epoch ++ closings (t.takeThrough epoch).2 epochs

/-- What is done for a request. -/
def events (r : Replay) (q : TraceRequest) : List Event :=
  r.thermal.toList.flatMap (closings · (r.clock.advance q.timeNs).1) ++ [.request q]

/-- Feeds requests to the model. -/
def run (r : Replay) (qs : List TraceRequest) : Replay := qs.foldl request r

/-- What is done for requests. -/
def history (r : Replay) : List TraceRequest → List Event
  | [] => []
  | q :: qs => r.events q ++ (r.request q).history qs

variable {r : Replay} {t : ThermalTrace} {q : TraceRequest} {qs : List TraceRequest}
  {h : List Event} {e : Nat}

theorem foldl_closeEpoch (m : Model) (t : ThermalTrace) (epochs : List Nat) :
    epochs.foldl closeEpoch (m, t) =
      ((closings t epochs).foldl Event.perform m,
        epochs.foldl (fun t epoch => (t.takeThrough epoch).2) t) := by
  induction epochs generalizing m t with
  | nil => rfl
  | cons epoch epochs ih =>
      have closed : closeEpoch (m, t) epoch =
          ((closing t epoch).foldl Event.perform m, (t.takeThrough epoch).2) := by
        simp only [closeEpoch, closing, Model.takeReadings, List.foldl_append, List.foldl_map]
        rfl
      rw [List.foldl_cons, closed, ih, closings, List.foldl_append]
      rfl

theorem request_eq (r : Replay) (q : TraceRequest) :
    r.request q =
      { model := (r.events q).foldl Event.perform r.model
        clock := (r.clock.advance q.timeNs).2
        thermal := r.thermal.map
          fun t => (r.clock.advance q.timeNs).1.foldl (fun t epoch => (t.takeThrough epoch).2) t } := by
  rcases r with ⟨m, c, thermal⟩
  cases thermal with
  | none => rfl
  | some t =>
      simp only [request, advance, foldl_closeEpoch, events, Option.toList_some, List.flatMap_cons,
        List.flatMap_nil, List.append_nil, List.foldl_append]
      rfl

theorem history_concat (r : Replay) (qs : List TraceRequest) (q : TraceRequest) :
    r.history (qs ++ [q]) = r.history qs ++ (r.run qs).events q := by
  induction qs generalizing r with
  | nil => exact List.append_nil _
  | cons first qs ih =>
      rw [List.cons_append, history, ih, history, List.append_assoc]
      rfl

theorem run_concat (r : Replay) (qs : List TraceRequest) (q : TraceRequest) :
    r.run (qs ++ [q]) = (r.run qs).request q := by
  rw [run, List.foldl_append]
  rfl

/-- The history tells what becomes of the model. -/
theorem run_model (r : Replay) (qs : List TraceRequest) :
    (r.run qs).model = (r.history qs).foldl Event.perform r.model := by
  induction qs using List.reverseRecOn with
  | nil => rfl
  | append_singleton qs q ih =>
      rw [run_concat, history_concat, List.foldl_append, ← ih, request_eq]

/-! ## Parts of histories -/

@[simp] theorem taken_append (h h' : List Event) : taken (h ++ h') = taken h ++ taken h' :=
  List.filterMap_append

@[simp] theorem passes_append (h h' : List Event) : passes (h ++ h') = passes h ++ passes h' :=
  List.filterMap_append

@[simp] theorem requests_append (h h' : List Event) :
    requests (h ++ h') = requests h ++ requests h' := List.filterMap_append

@[simp] theorem taken_reading (rs : List Reading) : taken (rs.map .reading) = rs := by
  rw [taken, List.filterMap_map]
  exact List.filterMap_some

@[simp] theorem passes_reading (rs : List Reading) : passes (rs.map .reading) = [] := by
  simp [passes, Event.pass?]

@[simp] theorem requests_reading (rs : List Reading) : requests (rs.map .reading) = [] := by
  simp [requests, Event.request?]

@[simp] theorem passes_closings (t : ThermalTrace) (epochs : List Nat) :
    passes (closings t epochs) = epochs := by
  induction epochs generalizing t with
  | nil => rfl
  | cons epoch epochs ih =>
      rw [closings, passes_append, ih, closing, passes_append, passes_reading]
      rfl

@[simp] theorem requests_closings (t : ThermalTrace) (epochs : List Nat) :
    requests (closings t epochs) = [] := by
  induction epochs generalizing t with
  | nil => rfl
  | cons epoch epochs ih =>
      rw [closings, requests_append, ih, closing, requests_append, requests_reading]
      rfl

theorem requests_events (r : Replay) (q : TraceRequest) : requests (r.events q) = [q] := by
  rw [events, requests_append]
  cases r.thermal with
  | none => rfl
  | some t =>
      simp only [Option.toList_some, List.flatMap_cons, List.flatMap_nil, List.append_nil,
        requests_closings]
      rfl

theorem passes_events (thermal : r.thermal = some t) (q : TraceRequest) :
    passes (r.events q) = (r.clock.advance q.timeNs).1 := by
  rw [events, passes_append, thermal]
  simp only [Option.toList_some, List.flatMap_cons, List.flatMap_nil, List.append_nil,
    passes_closings]
  exact List.append_nil _

/-- All requests are served, in order. -/
theorem requests_history (r : Replay) (qs : List TraceRequest) : requests (r.history qs) = qs := by
  induction qs generalizing r with
  | nil => rfl
  | cons q qs ih => rw [history, requests_append, requests_events, ih]; rfl

/-! ## Epochs -/

/-- The latest time of a request, at least zero. -/
def latest (qs : List TraceRequest) : Nat := (qs.map TraceRequest.timeNs).foldl max 0

/-- The epoch is one of the oldest in a gap of which not all epochs are run. -/
def Skips (epochNs : Nat) (qs : List TraceRequest) (e : Nat) : Prop :=
  ∃ i < qs.length, latest (qs.take i) / epochNs < e ∧
    e + catchUpEpochs ≤ latest (qs.take (i + 1)) / epochNs

instance {epochNs : Nat} {qs : List TraceRequest} {e : Nat} : Decidable (Skips epochNs qs e) :=
  inferInstanceAs (Decidable (∃ i, i < qs.length ∧ _))

theorem latest_concat (qs : List TraceRequest) (q : TraceRequest) :
    latest (qs ++ [q]) = max (latest qs) q.timeNs := by
  rw [latest, List.map_append, List.foldl_append]
  rfl

theorem latest_append_le (qs more : List TraceRequest) : latest qs ≤ latest (qs ++ more) := by
  induction more using List.reverseRecOn with
  | nil => rw [List.append_nil]
  | append_singleton more q ih =>
      rw [← List.append_assoc, latest_concat]
      exact ih.trans (Nat.le_max_left _ _)

theorem latest_concat_div (epochNs : Nat) (qs : List TraceRequest) (q : TraceRequest) :
    latest (qs ++ [q]) / epochNs = max (latest qs / epochNs) (q.timeNs / epochNs) := by
  rw [latest_concat]
  rcases Nat.le_total (latest qs) q.timeNs with le | le
  · rw [Nat.max_eq_right le, Nat.max_eq_right (Nat.div_le_div_right le)]
  · rw [Nat.max_eq_left le, Nat.max_eq_left (Nat.div_le_div_right le)]

/-- An epoch that is skipped is closed. -/
theorem Skips.le {epochNs : Nat} (skips : Skips epochNs qs e) : e ≤ latest qs / epochNs := by
  rcases skips with ⟨i, _, _, old⟩
  have le : latest (qs.take (i + 1)) / epochNs ≤ latest qs / epochNs := by
    have part := latest_append_le (qs.take (i + 1)) (qs.drop (i + 1))
    rw [List.take_append_drop] at part
    exact Nat.div_le_div_right part
  omega

theorem skips_concat {epochNs : Nat} : Skips epochNs (qs ++ [q]) e ↔ Skips epochNs qs e ∨
    (latest qs / epochNs < e ∧ e + catchUpEpochs ≤ latest (qs ++ [q]) / epochNs) := by
  have earlier : ∀ i, i ≤ qs.length → (qs ++ [q]).take i = qs.take i := fun i le =>
    List.take_append_of_le_length le
  have all : (qs ++ [q]).take (qs.length + 1) = qs ++ [q] := List.take_of_length_le (by simp)
  constructor
  · rintro ⟨i, within, later, old⟩
    rw [List.length_append, List.length_singleton] at within
    rcases Nat.lt_succ_iff_lt_or_eq.1 within with before | rfl
    · rw [earlier i (by omega)] at later
      rw [earlier (i + 1) before] at old
      exact .inl ⟨i, before, later, old⟩
    · rw [earlier _ (le_refl _), List.take_length] at later
      rw [all] at old
      exact .inr ⟨later, old⟩
  · rintro (⟨i, before, later, old⟩ | ⟨later, old⟩)
    · refine ⟨i, by simp; omega, ?_, ?_⟩
      · rwa [earlier i (by omega)]
      · rwa [earlier (i + 1) before]
    · refine ⟨qs.length, by simp, ?_, ?_⟩
      · rwa [earlier _ (le_refl _), List.take_length]
      · rwa [all]

/-- A replay before its first request. -/
def start (m : Model) (epochNs : Nat) (t : ThermalTrace) : Replay where
  model := m
  clock := { epochNs := epochNs }
  thermal := some t

variable {m : Model} {epochNs : Nat}

theorem run_clock (m : Model) (epochNs : Nat) (t : ThermalTrace) (qs : List TraceRequest) :
    ((start m epochNs t).run qs).clock = ⟨epochNs, latest qs / epochNs⟩ := by
  induction qs using List.reverseRecOn with
  | nil =>
      rw [latest, List.map_nil, List.foldl_nil, Nat.zero_div]
      rfl
  | append_singleton qs q ih =>
      let c : EpochClock := ⟨epochNs, latest qs / epochNs⟩
      have closed : (c.advance q.timeNs).2.closed = latest (qs ++ [q]) / epochNs := by
        rw [EpochClock.advance_closed, latest_concat_div]
      rw [run_concat, request_eq, ih]
      exact congrArg₂ EpochClock.mk (c.advance_epochNs q.timeNs) closed

theorem run_thermal (m : Model) (epochNs : Nat) (t : ThermalTrace) (qs : List TraceRequest) :
    ∃ t', ((start m epochNs t).run qs).thermal = some t' := by
  induction qs using List.reverseRecOn with
  | nil => exact ⟨t, rfl⟩
  | append_singleton qs q ih =>
      rcases ih with ⟨t', thermal⟩
      rw [run_concat, request_eq, thermal]
      exact ⟨_, rfl⟩

theorem passes_concat (m : Model) (epochNs : Nat) (t : ThermalTrace) (qs : List TraceRequest)
    (q : TraceRequest) :
    passes ((start m epochNs t).history (qs ++ [q])) = passes ((start m epochNs t).history qs) ++
      (EpochClock.advance ⟨epochNs, latest qs / epochNs⟩ q.timeNs).1 := by
  rcases run_thermal m epochNs t qs with ⟨t', thermal⟩
  rw [history_concat, passes_append, passes_events thermal, run_clock]

/-- All epochs that are closed pass, but for those skipped. -/
theorem mem_passes : e ∈ passes ((start m epochNs t).history qs) ↔
    1 ≤ e ∧ e ≤ latest qs / epochNs ∧ ¬Skips epochNs qs e := by
  induction qs using List.reverseRecOn with
  | nil =>
      have none_closed : latest [] / epochNs = 0 := Nat.zero_div _
      rw [none_closed]
      constructor
      · nofun
      · omega
  | append_singleton qs q ih =>
      rw [passes_concat, List.mem_append, ih, EpochClock.mem_advance, skips_concat,
        latest_concat_div]
      dsimp only
      -- The divisions are the same numbers on both sides; what is left is linear in them.
      have bound : Skips epochNs qs e → e ≤ latest qs / epochNs := Skips.le
      generalize latest qs / epochNs = closed_before at *
      by_cases skipped : Skips epochNs qs e
      · have le := bound skipped
        simp only [skipped, not_true_eq_false, and_false, true_or, false_or, iff_false]
        omega
      · simp only [skipped, not_false_eq_true, and_true, false_or]
        omega

theorem passes_pairwise (m : Model) (epochNs : Nat) (t : ThermalTrace) (qs : List TraceRequest) :
    (passes ((start m epochNs t).history qs)).Pairwise (· < ·) := by
  induction qs using List.reverseRecOn with
  | nil => exact List.Pairwise.nil
  | append_singleton qs q ih =>
      rw [passes_concat, List.pairwise_append]
      -- What has passed before is closed, and what passes now was not.
      refine ⟨ih, EpochClock.advance_pairwise _ _, fun earlier before later now => ?_⟩
      have closed := (mem_passes.1 before).2.1
      have open_ := (EpochClock.mem_advance.1 now).1
      exact Nat.lt_of_le_of_lt closed open_

/-! ## Readings -/

variable {file : List (Nat × Reading)} {last? : Option Nat}

/-- Whenever an epoch passes, the readings that have been taken are those due by then. -/
def Timely (file : List (Nat × Reading)) (h : List Event) : Prop :=
  ∀ before epoch, before ++ [.pass epoch] <+: h →
    taken before = (file.filter (Reading.dueBy (some epoch))).map Prod.snd

/-- Of readings in order, those due have been taken in time, and the others are left. -/
structure Progress (file : List (Nat × Reading)) (last? : Option Nat) (h : List Event)
    (t : ThermalTrace) : Prop where
  taken : taken h = (file.filter (Reading.dueBy last?)).map Prod.snd
  left : t.readings = file.filter fun r => !Reading.dueBy last? r
  timely : Timely file h

theorem Timely.concat (timely : Timely file h) {x : Event} (due : ∀ epoch, x = .pass epoch →
      taken h = (file.filter (Reading.dueBy (some epoch))).map Prod.snd) :
    Timely file (h ++ [x]) := by
  intro before epoch starts
  rcases List.prefix_concat_iff.1 starts with same | earlier
  · rcases List.append_inj' same rfl with ⟨rfl, last⟩
    cases last
    exact due epoch rfl
  · exact timely before epoch earlier

theorem Timely.readings (timely : Timely file h) (rs : List Reading) :
    Timely file (h ++ rs.map .reading) := by
  induction rs using List.reverseRecOn with
  | nil =>
      rw [List.map_nil, List.append_nil]
      exact timely
  | append_singleton rs r ih =>
      rw [List.map_append, ← List.append_assoc]
      exact ih.concat nofun

namespace Progress

theorem closing (p : Progress file last? h t) (order : file.Pairwise fun a b => a.1 ≤ b.1)
    (later : ∀ last ∈ last?, last ≤ e) :
    Progress file (some e) (h ++ closing t e) (t.takeThrough e).2 := by
  rcases t.takeThrough_readings e with ⟨now, rest⟩
  -- The readings taken now are behind all those taken before, as epochs never go back.
  have all : Replay.taken (h ++ (t.takeThrough e).1.map .reading) =
      (file.filter (Reading.dueBy (some e))).map Prod.snd := by
    rw [taken_append, taken_reading, now, p.taken, p.left, ← List.map_append,
      Reading.filter_dueBy order later]
  refine ⟨?_, ?_, ?_⟩
  · rw [Replay.closing, ← List.append_assoc, taken_append, all]
    exact List.append_nil _
  · rw [rest, p.left, Reading.filter_not_dueBy later]
  · rw [Replay.closing, ← List.append_assoc]
    refine (p.timely.readings _).concat fun epoch same => ?_
    cases same
    exact all

theorem closings (p : Progress file last? h t) (order : file.Pairwise fun a b => a.1 ≤ b.1)
    {epochs : List Nat} (ascending : epochs.Pairwise (· < ·))
    (later : ∀ last ∈ last?, ∀ e ∈ epochs, last < e) :
    Progress file (epochs.getLast?.or last?) (h ++ closings t epochs)
      (epochs.foldl (fun t epoch => (t.takeThrough epoch).2) t) := by
  -- The last epoch that is closed moves on with each step of the induction.
  induction epochs generalizing last? h t with
  | nil =>
      rw [Replay.closings, List.append_nil]
      exact p
  | cons e epochs ih =>
      rw [List.pairwise_cons] at ascending
      have first := p.closing order fun last some_last =>
        Nat.le_of_lt (later last some_last e List.mem_cons_self)
      have rest := ih first ascending.2 fun last same => by
        cases same
        exact ascending.1
      have last : (e :: epochs).getLast?.or last? = epochs.getLast?.or (some e) := by
        rw [List.getLast?_cons]
        cases epochs.getLast? <;> rfl
      rw [last, Replay.closings, ← List.append_assoc]
      exact rest

end Progress

/-- After each request, what is due by the last epoch that is closed has been taken. -/
theorem run_progress (m : Model) (epochNs : Nat) (t : ThermalTrace)
    (order : t.readings.Pairwise fun a b => a.1 ≤ b.1) (qs : List TraceRequest) :
    ∃ t', ((start m epochNs t).run qs).thermal = some t' ∧
      Progress t.readings ((start m epochNs t).run qs).clock.last?
        ((start m epochNs t).history qs) t' := by
  induction qs using List.reverseRecOn with
  | nil =>
      have nothing : t.readings.filter (Reading.dueBy none) = [] :=
        List.filter_eq_nil_iff.2 fun _ _ => Bool.false_ne_true
      have everything : (t.readings.filter fun r => !Reading.dueBy none r) = t.readings :=
        List.filter_eq_self.2 fun _ _ => rfl
      refine ⟨t, rfl, ?_, everything.symm, ?_⟩
      · exact (congrArg (List.map Prod.snd) nothing).symm
      · intro before epoch starts
        simp [history] at starts
  | append_singleton qs q ih =>
      rcases ih with ⟨t', thermal, progress⟩
      let r := (start m epochNs t).run qs
      -- The epochs that pass for the request are all later than the last one closed before it.
      have closed := progress.closings order (r.clock.advance_pairwise q.timeNs)
        fun last some_last e now => by
          have later := (EpochClock.mem_advance.1 now).1
          unfold EpochClock.last? at some_last
          split at some_last
          · cases some_last
          · cases some_last
            exact later
      rw [EpochClock.advance_last?] at closed
      have events : r.events q = Replay.closings t' (r.clock.advance q.timeNs).1 ++ [.request q] := by
        simp [Replay.events, r, thermal]
      rw [run_concat, history_concat, request_eq, thermal]
      refine ⟨_, rfl, ?_, closed.left, ?_⟩
      · rw [events, ← List.append_assoc, taken_append, closed.taken]
        exact List.append_nil _
      · rw [events, ← List.append_assoc]
        exact closed.timely.concat nofun

/-! ## The schedule -/

/-- The schedule of a replay, after any number of requests.  The epochs that pass do so in order, at
most 64 of them for a request.  All epochs that have ended by the latest request are closed, and pass
but for those that a long gap skips.  The readings taken are those due by the last epoch that is
closed, each once, by epoch and by line; before the first epoch is closed there are none.  Whenever an
epoch passes, the readings taken are those due by that epoch. -/
theorem run_schedule {text : List Char} (parsed : ThermalTrace.ofText text = .ok t) (m : Model)
    (epochNs : Nat) (qs : List TraceRequest) :
    let r := (start m epochNs t).run qs
    let h := (start m epochNs t).history qs
    let file := Reading.byEpoch (Reading.allOf text)
    r.model = h.foldl Event.perform m ∧ requests h = qs ∧
      (passes h).Pairwise (· < ·) ∧ (∀ q, (passes (r.events q)).length ≤ catchUpEpochs) ∧
      r.clock.closed = latest qs / epochNs ∧
      (∀ e, e ∈ passes h ↔ 1 ≤ e ∧ e ≤ r.clock.closed ∧ ¬Skips epochNs qs e) ∧
      taken h = (file.filter (Reading.dueBy r.clock.last?)).map Prod.snd ∧
      ∀ before e, before ++ [.pass e] <+: h →
        taken before = (file.filter (Reading.dueBy (some e))).map Prod.snd := by
  intro r h file
  -- From here on the trace is its readings, and these are in order.
  have readings : t.readings = file := ThermalTrace.readings_ofText parsed
  have order : t.readings.Pairwise fun a b => a.1 ≤ b.1 := readings ▸ Reading.byEpoch_pairwise _
  rcases run_progress m epochNs t order qs with ⟨t', thermal, progress⟩
  rw [readings] at progress
  have clock : r.clock = ⟨epochNs, latest qs / epochNs⟩ := run_clock m epochNs t qs
  refine ⟨run_model _ qs, requests_history _ qs, passes_pairwise m epochNs t qs, fun q => ?_, ?_,
    fun e => ?_, progress.taken, progress.timely⟩
  · rw [passes_events thermal]
    exact r.clock.advance_length q.timeNs
  · rw [clock]
  · rw [clock]
    exact mem_passes

/-- Readings out of order, a late request and a gap of 198 epochs. -/
theorem run_schedule_gap :
    let text := "5 0 0 70\n2 0 1 81\n2 0 0 82\n0 0 1 65\n201 0 0 90\n".toList
    let m : Model := { settings := .twoBanks .swap, controller := .ofSettings (.twoBanks .swap) }
    let qs : List TraceRequest :=
      [⟨25, .read, 0, 64⟩, ⟨10, .write, 64, 64⟩, ⟨2009, .read, 0, 64⟩]
    ∃ t, ThermalTrace.ofText text = .ok t ∧
      ((start m 10 t).run qs).clock.closed = 200 ∧
      137 ∈ passes ((start m 10 t).history qs) ∧ 136 ∉ passes ((start m 10 t).history qs) ∧
      (taken ((start m 10 t).history qs)).map Reading.place = [⟨0, 1⟩, ⟨0, 1⟩, ⟨0, 0⟩, ⟨0, 0⟩] := by
  intro text m qs
  have readable : (ThermalTrace.ofText text).toOption.isSome = true := by decide +kernel
  cases parsed : ThermalTrace.ofText text with
  | error cause =>
      rw [parsed] at readable
      cases readable
  | ok t =>
      rcases run_schedule parsed m 10 qs with ⟨_, _, _, _, closed, passed, taken_due, _⟩
      have all : ((start m 10 t).run qs).clock.closed = 200 := closed.trans (by decide)
      rw [all] at passed
      have last : ((start m 10 t).run qs).clock.last? = some 200 := by
        simp only [EpochClock.last?, all]
        rfl
      rw [last] at taken_due
      refine ⟨t, rfl, all, (passed 137).2 (by decide +kernel), fun member => ?_, ?_⟩
      · exact absurd ((passed 136).1 member) (by decide +kernel)
      · rw [taken_due]
        decide +kernel

end Replay

end StackedCache
