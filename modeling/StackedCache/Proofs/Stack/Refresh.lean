import StackedCache.Proofs.Stack.Commands

/-!
# Refreshes

A refresh issues a precharge if a row is open, and then the command for the refresh itself.  In an
orderly bank the second is never refused after the first has been accepted.  So a refresh does
nothing, if the last column access has precharged the bank, or else all that it should:
`run_refresh`.
-/

namespace StackedCache

namespace Bank

variable {b b' : Bank} {row : Nat} {time closing latency : Time}

/-- All that a refresh does. -/
structure Refreshed (b : Bank) (time latency : Time) (b' : Bank) : Prop where
  closed : b'.openRow = none
  last : b'.last = .refsb
  counted : b'.activity.refreshes = b.activity.refreshes + 1
  busy : b'.busy = b.busy + latency
  next : b'.nextRefresh = time + latency + b.interval
  refreshInterval : b'.refreshInterval = b.refreshInterval
  hot : b'.hot = b.hot
  rowCount : b'.rowCount = b.rowCount

/-- A closed bank with rows takes the command for a refresh. -/
theorem permit_refsb (closed : b.Closed) (positive : 0 < b.rowCount) :
    ∃ latency, b.permit .refsb 0 = .ok latency :=
  permit_succeeds positive nofun (Speed.refsb_after_iff.2 closed.2)

theorem permit_pre (opened : b.Opened row) : ∃ latency, b.permit .pre row = .ok latency :=
  permit_succeeds opened.2.1 nofun (Speed.pre_after_iff.2 opened.2.2)

/-- The refresh of a bank whose open row has been closed. -/
theorem refreshClosed_succeeds (closed : b.Closed) (positive : 0 < b.rowCount)
    (time closing : Time) :
    ∃ refreshing, refreshClosed time closing b =
      .ok (closing + refreshing)
        ((b.accept .refsb 0 (time + closing) refreshing).schedule
          (time + (closing + refreshing))) := by
  rcases permit_refsb closed positive with ⟨refreshing, permitted⟩
  exact ⟨refreshing, by simp only [refreshClosed_apply, permitted]⟩

theorem not_precharged (orderly : b.Closed ∨ ∃ row, b.Opened row) : ¬b.Precharged := by
  rintro ⟨isClosed, last⟩
  rcases orderly with closed | ⟨row, opened⟩
  · rcases closed.2 with eq | eq <;> simp [eq] at last
  · rw [opened.1] at isClosed
    cases isClosed

/-- An orderly bank with rows is refreshed, or was precharged and is left as it was. -/
theorem Orderly.refresh_cases (h : b.Orderly) (positive : 0 < b.rowCount) (time : Time) :
    (b.Precharged ∧ refresh time b = .error (.illegalTransition b.last .refsb) b) ∨
      (¬b.Precharged ∧ ∃ latency b', refresh time b = .ok latency b' ∧
        b.Refreshed time latency b') := by
  -- A refresh is legal right after a precharge or a refresh only.
  cases h with
  | precharged h =>
      refine .inl ⟨h, ?_⟩
      have run : closeRow time b = .ok .zero b := by rw [closeRow_apply, h.1]
      have illegal : b.permit .refsb 0 = .error (.illegalTransition b.last .refsb) := by
        have none : b.speed.latency? b.last .refsb = none := by
          rcases h.2 with eq | eq <;> rw [eq] <;> rfl
        simp [permit, Nat.not_le.2 positive, Command.isColumn, none]
      rw [refresh_eq, bind_of_ok run, refreshClosed_apply, illegal]
  | closed h =>
      refine .inr ⟨not_precharged (.inl h), ?_⟩
      have run : closeRow time b = .ok .zero b := by rw [closeRow_apply, h.1]
      rcases refreshClosed_succeeds h positive time .zero with ⟨refreshing, done⟩
      have refreshed := (bind_of_ok run).trans done
      refine ⟨_, _, refreshed, h.1, rfl, rfl, ?_, rfl, rfl, rfl, rfl⟩
      exact (Time.add_zero_add _ _).symm
  | @opened row h =>
      refine .inr ⟨not_precharged (.inr ⟨row, h⟩), ?_⟩
      rcases permit_pre h with ⟨closing, permitted⟩
      have run : closeRow time b = .ok closing (b.accept .pre row time closing) := by
        rw [closeRow_apply, h.1]
        simp only [issue_apply, permitted]
      have closed : (b.accept .pre row time closing).Closed := ⟨rfl, .inl rfl⟩
      rcases refreshClosed_succeeds closed positive time closing with ⟨refreshing, done⟩
      have refreshed := (bind_of_ok run).trans done
      refine ⟨_, _, refreshed, rfl, rfl, rfl, ?_, rfl, rfl, rfl, rfl⟩
      exact Time.add_assoc _ _ _

/-- Wherever operations lead a bank with rows, a refresh fails exactly if the last command was a
column access with a precharge of its own, and then it does nothing.  Otherwise it leaves no row
open, counts one refresh, adds its latency to the busy time, and sets the next date one interval
after its end. -/
theorem run_refresh {size rowSize : Nat} {speed : Speed}
    (positive : 0 < (ofSize size rowSize speed).rowCount) (ops : List Operation) (time : Time) :
    let b := (ofSize size rowSize speed).run ops
    (b.last = .rda ∨ b.last = .wra →
      refresh time b = .error (.illegalTransition b.last .refsb) b) ∧
    (¬(b.last = .rda ∨ b.last = .wra) →
      ∃ latency b', refresh time b = .ok latency b' ∧
        b'.openRow = none ∧ b'.last = .refsb ∧ (∀ row, b'.rowState? row ≠ some .opened) ∧
        b'.activity.refreshes = b.activity.refreshes + 1 ∧ b'.busy = b.busy + latency ∧
        b'.nextRefresh = time + latency + b.interval) := by
  intro b
  have evolves : Evolves (ofSize size rowSize speed) b := run_evolves _ ops
  have orderly : b.Orderly := evolves.orderly (ofSize_orderly size rowSize speed)
  rcases orderly.refresh_cases (evolves.rowCount ▸ positive) time with
    ⟨precharged, failed⟩ | ⟨not_precharged, latency, b', done, refreshed⟩
  · exact ⟨fun _ => failed, fun other => absurd precharged.2 other⟩
  · constructor
    · -- After a column access with a precharge, the bank of a run has no open row.
      intro last
      have isClosed : b.openRow = none := by
        have closes := orderly.openRow_isSome_iff
        cases isOpen : b.openRow with
        | none => rfl
        | some row =>
            rw [isOpen] at closes
            have := closes.1 rfl
            rcases last with eq | eq <;> simp [eq] at this
      exact absurd ⟨isClosed, last⟩ not_precharged
    · intro _
      refine ⟨latency, b', done, refreshed.closed, refreshed.last, fun row isOpen => ?_,
        refreshed.counted, refreshed.busy, refreshed.next⟩
      unfold rowState? at isOpen
      rw [refreshed.closed] at isOpen
      split at isOpen <;> simp at isOpen

/-- A bank is read and gets hot, and is refreshed with its row open.  Then a row is written and
closed again, and the next refresh fails. -/
theorem run_refresh_hot :
    let ops : List Operation :=
      [.setRefreshInterval ⟨3900000⟩, .issue .act 1 ⟨0⟩, .issue .rd 1 ⟨14000⟩, .setHot true]
    let more : List Operation :=
      ops ++ [.refresh ⟨2000000⟩, .issue .act 0 ⟨2100000⟩, .issue .wra 0 ⟨2100000⟩]
    let start := ofSize 1024 256 {}
    0 < start.rowCount ∧ (start.run ops).openRow = some 1 ∧
      (∃ latency b', refresh ⟨2000000⟩ (start.run ops) = .ok latency b' ∧ b'.openRow = none ∧
        b'.activity.refreshes = 1 ∧ b'.nextRefresh = ⟨2000000⟩ + latency + ⟨1950000⟩) ∧
      refresh ⟨3000000⟩ (start.run more) =
        .error (.illegalTransition .wra .refsb) (start.run more) := by
  intro ops more start
  have positive : 0 < start.rowCount := by decide
  have opened : (start.run ops).openRow = some 1 ∧ (start.run ops).last = .rd ∧
      (start.run ops).activity.refreshes = 0 ∧ (start.run ops).interval = ⟨1950000⟩ := by
    decide +kernel
  have written : (start.run more).last = .wra := by decide +kernel
  have early := run_refresh positive ops ⟨2000000⟩
  have late := run_refresh positive more ⟨3000000⟩
  -- The banks are known well enough by now.
  simp only [show ofSize 1024 256 {} = start from rfl] at early late
  generalize start.run ops = b at opened early
  generalize start.run more = b₁ at written late
  rcases opened with ⟨isOpen, last, fresh, hot⟩
  rcases early.2 (by simp [last]) with ⟨latency, b', done, closed, _, _, counted, _, next⟩
  refine ⟨positive, isOpen, ⟨latency, b', done, closed, ?_, ?_⟩, ?_⟩
  · rw [counted, fresh]
  · rw [next, hot]
  · have failed := late.1 (.inr written)
    rwa [written] at failed

end Bank

end StackedCache
