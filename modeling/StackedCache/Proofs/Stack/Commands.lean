import StackedCache.Proofs.Stack.Ready

/-!
# Commands in any order

Commands reach a bank in any order and with any rows.  A bank is closed, or has an open row, or was
precharged by its last column access, and the last command tells which: each accepted command leads
from one of these cases to another, and a refused one changes nothing.  So the open row is the only
one whose own state would be open, if every row had a state that commands write: `run_orderly`.
-/

namespace StackedCache

namespace Speed

variable {s : Speed} {before next : Command}

/-- What may follow some command at all. -/
theorem next_mem_of_latency? (h : (s.latency? before next).isSome = true) :
    next ∈ [.act, .pre, .rd, .wr, .rda, .wra, .refsb] := by
  cases next <;> first | decide | (cases before <;> exact nomatch h)

end Speed

namespace Bank

variable {b b' : Bank} {command : Command} {row : Nat} {time latency : Time}
  {states : List RowState}

/-! ## Operations -/

inductive Operation where
  | issue (command : Command) (row : Nat) (time : Time)
  | refresh (time : Time)
  | setRefreshInterval (interval : Time)
  | setHot (hot : Bool)
  | resetActivity

/-- The bank that an operation leaves behind, also when it fails. -/
def perform (b : Bank) : Operation → Bank
  | .issue command row time => final (issue command row time b)
  | .refresh time => final (refresh time b)
  | .setRefreshInterval interval => b.setRefreshInterval interval
  | .setHot hot => b.setHot hot
  | .resetActivity => b.resetActivity

/-- Performs operations in order. -/
def run (b : Bank) (ops : List Operation) : Bank := ops.foldl perform b

/-! ## Permission -/

/-- A command is not for this bank: it lacks the row, or its row is not the open one, or it may not
follow the last command. -/
def Forbids (b : Bank) (command : Command) (row : Nat) : Prop :=
  b.rowCount ≤ row ∨ command.isColumn = true ∧ b.openRow ≠ some row ∨
    command.isColumn = false ∧ b.speed.latency? b.last command = none

/-- An access to a column of an open row is always legal. -/
theorem act_before_column (s : Speed) (column : command.isColumn = true) :
    (s.latency? .act command).isSome = true := by
  cases command <;> first | rfl | exact nomatch column

/-- A command is forbidden and changes nothing, or it is permitted and accepted. -/
theorem issue_cases (b : Bank) (command : Command) (row : Nat) (time : Time) :
    (b.Forbids command row ∧ ∃ cause, b.permit command row = .error cause ∧
        issue command row time b = .error cause b) ∨
      (¬b.Forbids command row ∧ ∃ latency, b.permit command row = .ok latency ∧
        issue command row time b = .ok latency (b.accept command row time latency)) := by
  rw [issue_apply]
  cases permitted : b.permit command row with
  | ok latency =>
      refine .inr ⟨?_, latency, rfl, rfl⟩
      rcases permit_eq_ok_iff.1 permitted with ⟨row_lt, opened, legal⟩
      rintro (beyond | ⟨column, other⟩ | ⟨noColumn, illegal⟩)
      · exact absurd row_lt (Nat.not_lt.2 beyond)
      · exact other (opened column)
      · simp [noColumn, illegal] at legal
  | error cause =>
      -- What is not forbidden would be permitted.
      refine .inl ⟨Classical.byContradiction fun allowed => ?_, cause, rfl, rfl⟩
      unfold Forbids at allowed
      have row_lt : row < b.rowCount := Nat.not_le.1 fun beyond => allowed (.inl beyond)
      have opened : command.isColumn = true → b.openRow = some row := fun column =>
        Decidable.byContradiction fun other => allowed (.inr (.inl ⟨column, other⟩))
      have legal : (b.speed.latency? (if command.isColumn then .act else b.last) command).isSome =
          true := by
        cases column : command.isColumn with
        | true => exact act_before_column b.speed column
        | false =>
            exact Option.isSome_iff_ne_none.2 fun illegal =>
              allowed (.inr (.inr ⟨column, illegal⟩))
      rcases permit_succeeds row_lt opened legal with ⟨latency, ok⟩
      rw [permitted] at ok
      cases ok

theorem issue_error_iff (b : Bank) (command : Command) (row : Nat) (time : Time) :
    ((∃ cause left, issue command row time b = .error cause left) ↔ b.Forbids command row) ∧
      ∀ cause left, issue command row time b = .error cause left → left = b := by
  rcases b.issue_cases command row time with
    ⟨forbidden, cause, _, refused⟩ | ⟨allowed, latency, _, done⟩
  · rw [refused]
    refine ⟨⟨fun _ => forbidden, fun _ => ⟨cause, b, rfl⟩⟩, fun _ _ eq => ?_⟩
    cases eq
    rfl
  · rw [done]
    refine ⟨⟨?_, fun forbidden => absurd forbidden allowed⟩, ?_⟩
    · rintro ⟨cause, left, eq⟩
      cases eq
    · intro cause left eq
      cases eq

/-! ## Order -/

/-- No row is open since the last column access has closed its row. -/
def Precharged (b : Bank) : Prop := b.openRow = none ∧ (b.last = .rda ∨ b.last = .wra)

/-- The last command tells whether a row is open. -/
inductive Orderly (b : Bank) : Prop where
  | closed (h : b.Closed)
  | opened {row : Nat} (h : b.Opened row)
  | precharged (h : b.Precharged)

/-- Which command is accepted decides how the bank is left. -/
theorem Orderly.accept (h : b.Orderly) (permitted : b.permit command row = .ok latency) :
    (b.accept command row time latency).Orderly := by
  rcases permit_eq_ok_iff.1 permitted with ⟨row_lt, column, legal⟩
  have follows : (b.speed.latency? (if command.isColumn then .act else b.last) command).isSome =
      true := Option.isSome_iff_exists.2 ⟨latency, legal⟩
  have possible := Speed.next_mem_of_latency? follows
  simp only [List.mem_cons, List.not_mem_nil, or_false] at possible
  rcases possible with rfl | rfl | rfl | rfl | rfl | rfl | rfl
  · have opened : (b.accept .act row time latency).Opened row :=
      ⟨rfl, row_lt, .inl rfl⟩
    exact .opened opened
  · exact .closed ⟨rfl, .inl rfl⟩
  · have opened : (b.accept .rd row time latency).Opened row :=
      ⟨column rfl, row_lt, .inr (.inl rfl)⟩
    exact .opened opened
  · have opened : (b.accept .wr row time latency).Opened row :=
      ⟨column rfl, row_lt, .inr (.inr rfl)⟩
    exact .opened opened
  · exact .precharged ⟨rfl, .inl rfl⟩
  · exact .precharged ⟨rfl, .inr rfl⟩
  · -- A refresh only follows a precharge or another refresh, and so finds the bank closed.
    have last := Speed.refsb_after_iff.1 follows
    cases h with
    | closed closed => exact .closed ⟨closed.1, .inr rfl⟩
    | opened opened =>
        rcases opened.2.2 with eq | eq | eq <;> simp [eq, Command.isColumn] at last
    | precharged precharged =>
        rcases precharged.2 with eq | eq <;> simp [eq, Command.isColumn] at last

theorem Orderly.openRow_isSome_iff (h : b.Orderly) :
    b.openRow.isSome = true ↔ b.last = .act ∨ b.last = .rd ∨ b.last = .wr := by
  cases h with
  | closed h => rcases h with ⟨isClosed, eq | eq⟩ <;> simp [isClosed, eq]
  | opened h => rcases h with ⟨isOpen, _, eq | eq | eq⟩ <;> simp [isOpen, eq]
  | precharged h => rcases h with ⟨isClosed, eq | eq⟩ <;> simp [isClosed, eq]

theorem Orderly.last_notMem (h : b.Orderly) :
    b.last ∉ [.prea, .ref, .pde, .pdx, .sre, .srx] := by
  cases h with
  | closed h => rcases h.2 with eq | eq <;> simp [eq]
  | opened h => rcases h.2.2 with eq | eq | eq <;> simp [eq]
  | precharged h => rcases h.2 with eq | eq <;> simp [eq]

/-- An open row is one of the rows of the bank. -/
theorem Orderly.lt_rows (h : b.Orderly) (isOpen : b.openRow = some row) : row < b.rows := by
  have within : b.rowCount ≤ b.rows := Nat.mod_le _ _
  cases h with
  | closed h => rw [h.1] at isOpen; cases isOpen
  | opened h =>
      rw [h.1] at isOpen
      cases isOpen
      exact Nat.lt_of_lt_of_le h.2.1 within
  | precharged h => rw [h.1] at isOpen; cases isOpen

theorem Orderly.rowState?_eq_opened_iff (h : b.Orderly) :
    b.rowState? row = some .opened ↔ b.openRow = some row := by
  unfold rowState?
  constructor
  · intro isOpen
    split at isOpen
    · cases isOpen
    · split at isOpen
      · assumption
      · cases isOpen
  · intro isOpen
    rw [if_neg (Nat.not_le.2 (h.lt_rows isOpen)), if_pos isOpen]

/-! ## Closing and refreshing -/

theorem closeRow_apply (time : Time) (b : Bank) :
    closeRow time b =
      match b.openRow with
      | some row => issue .pre row time b
      | none => .ok .zero b := by
  have read : closeRow time b =
      (match b.openRow with
        | some row => issue .pre row time
        | none => return .zero : BankStep Time) b := rfl
  rw [read]
  cases b.openRow <;> rfl

/-- Refreshes the bank after its open row has been closed. -/
def refreshClosed (time closing : Time) : BankStep Time := do
  let refreshing ← issue .refsb 0 (time + closing)
  let latency := closing + refreshing
  modify (·.schedule (time + latency))
  return latency

theorem refresh_eq (time : Time) : refresh time = closeRow time >>= refreshClosed time := rfl

theorem refreshClosed_apply (time closing : Time) (b : Bank) :
    refreshClosed time closing b =
      match b.permit .refsb 0 with
      | .ok refreshing =>
          .ok (closing + refreshing)
            ((b.accept .refsb 0 (time + closing) refreshing).schedule
              (time + (closing + refreshing)))
      | .error cause => .error cause b := by
  simp only [refreshClosed, bind, EStateM.bind, issue_apply]
  cases b.permit .refsb 0 <;> rfl

/-! ## Runs -/

/-- What operations keep: the order of the bank, its rows, and its clock from going back. -/
structure Evolves (b b' : Bank) : Prop where
  orderly : b.Orderly → b'.Orderly
  rowCount : b'.rowCount = b.rowCount
  clock : b.clock ≤ b'.clock

instance : IsPreorder Bank Evolves where
  refl _ := ⟨id, rfl, Nat.le_refl _⟩
  trans _ _ _ h h' := ⟨h'.orderly ∘ h.orderly, h'.rowCount.trans h.rowCount,
    Nat.le_trans h.clock h'.clock⟩

/-- A bank whose row and last command are the same is as orderly. -/
theorem Orderly.congr (h : b.Orderly) (rows : b'.rowCount = b.rowCount)
    (openRow : b'.openRow = b.openRow) (last : b'.last = b.last) : b'.Orderly := by
  cases h with
  | closed h => exact .closed ⟨openRow.trans h.1, last ▸ h.2⟩
  | opened h => exact .opened ⟨openRow.trans h.1, rows ▸ h.2.1, last ▸ h.2.2⟩
  | precharged h => exact .precharged ⟨openRow.trans h.1, last ▸ h.2⟩

theorem issue_evolves (command : Command) (row : Nat) (time : Time) :
    Leads Evolves (issue command row time) b := by
  unfold Leads
  rcases b.issue_cases command row time with ⟨_, cause, _, refused⟩ | ⟨_, latency, permitted, done⟩
  · rw [refused]
    exact refl b
  · rw [done]
    exact ⟨fun h => h.accept permitted, rfl, Time.le_later _ _⟩

/-- A refresh leads where its commands and a new date do. -/
theorem refresh_leads {R : Bank → Bank → Prop} [IsPreorder Bank R]
    (issues : ∀ command row time b, Leads R (issue command row time) b)
    (dated : ∀ (b : Bank) (time : Time), R b (b.schedule time)) (time : Time) :
    Leads R (refresh time) b := by
  have closing : Leads R (closeRow time) b := by
    unfold Leads
    rw [closeRow_apply]
    cases b.openRow with
    | none => exact refl b
    | some row => exact issues .pre row time b
  rw [refresh_eq]
  refine .bind closing fun closing b₁ _ => .bind (issues .refsb 0 _ b₁) fun _ b₂ _ => ?_
  exact .bind (.modify (dated b₂ _)) fun _ _ _ => .pure _

theorem refresh_evolves (time : Time) : Leads Evolves (refresh time) b :=
  refresh_leads (fun command row time _ => issue_evolves command row time)
    (fun _ _ => ⟨fun h => h.congr rfl rfl rfl, rfl, Nat.le_refl _⟩) time

theorem perform_evolves (b : Bank) (op : Operation) : b.Evolves (b.perform op) := by
  cases op with
  | issue command row time => exact issue_evolves command row time
  | refresh time => exact refresh_evolves time
  | setRefreshInterval interval => exact ⟨fun h => h.congr rfl rfl rfl, rfl, Nat.le_refl _⟩
  | setHot hot =>
      simp only [perform, Bank.setHot]
      split
      · exact refl b
      · exact ⟨fun h => h.congr rfl rfl rfl, rfl, Nat.le_refl _⟩
  | resetActivity => exact ⟨fun h => h.congr rfl rfl rfl, rfl, Nat.le_refl _⟩

theorem run_evolves (b : Bank) (ops : List Operation) : b.Evolves (b.run ops) := by
  induction ops generalizing b with
  | nil => exact refl b
  | cons op ops ih => exact IsTrans.trans _ _ _ (b.perform_evolves op) (ih (b.perform op))

theorem ofSize_orderly (size rowSize : Nat) (speed : Speed) :
    (ofSize size rowSize speed).Orderly := .closed ⟨rfl, .inl rfl⟩

/-! ## States of rows -/

/-- The states of all rows, if each row has a state of its own, once the open row is closed. -/
def closeStates (b : Bank) (states : List RowState) : List RowState :=
  match b.openRow with
  | some current => states.set current .closed
  | none => states

/-- The states once a command is accepted.  The open row is closed before another one is opened. -/
def writeStates (b : Bank) (command : Command) (row : Nat) (states : List RowState) :
    List RowState :=
  if command = .act then (b.closeStates states).set row .opened
  else if command.closesRow || command.autoPrecharges then b.closeStates states
  else states

/-- The states after a command, which may be refused. -/
def statesAfterIssue (b : Bank) (command : Command) (row : Nat) (states : List RowState) :
    List RowState :=
  match b.permit command row with
  | .ok _ => b.writeStates command row states
  | .error _ => states

/-- The states after an operation; of a refresh, only the precharge writes states. -/
def statesAfter (b : Bank) (states : List RowState) : Operation → List RowState
  | .issue command row _ => b.statesAfterIssue command row states
  | .refresh _ =>
      match b.openRow with
      | some row => b.statesAfterIssue .pre row states
      | none => states
  | _ => states

/-- The states after operations in order. -/
def statesAfterRun : Bank → List RowState → List Operation → List RowState
  | _, states, [] => states
  | b, states, op :: ops => statesAfterRun (b.perform op) (b.statesAfter states op) ops

/-- The states are those that the open row stands for. -/
def Shows (b : Bank) (states : List RowState) : Prop := ∀ row, states[row]? = b.rowState? row

theorem Shows.congr (h : b.Shows states) (rows : b'.rows = b.rows)
    (openRow : b'.openRow = b.openRow) : b'.Shows states := by
  intro row
  rw [h row, rowState?, rowState?, rows, openRow]

/-- Without its open row, all rows of the bank are closed. -/
theorem Shows.getElem?_closeStates (h : b.Shows states) (row : Nat) :
    (b.closeStates states)[row]? = if b.rows ≤ row then none else some .closed := by
  unfold closeStates
  cases isOpen : b.openRow with
  | none =>
      simp only
      rw [h row, rowState?, isOpen]
      simp
  | some current =>
      simp only
      rw [List.getElem?_set', h row, rowState?, isOpen]
      by_cases beyond : b.rows ≤ row
      · simp [beyond]
      · by_cases here : current = row <;> simp [beyond, here]

theorem Shows.accept (h : b.Shows states) (command : Command) (row : Nat) (time latency : Time) :
    (b.accept command row time latency).Shows (b.writeStates command row states) := by
  intro r
  have after : (b.accept command row time latency).rowState? r =
      if b.rows ≤ r then none
      else if b.openAfter command row = some r then some .opened else some .closed := rfl
  rw [after, writeStates, openAfter]
  by_cases act : command = .act
  · simp only [act, if_true]
    rw [List.getElem?_set', h.getElem?_closeStates r]
    by_cases beyond : b.rows ≤ r
    · simp [beyond]
    · by_cases here : row = r <;> simp [beyond, here]
  · simp only [act, if_false]
    by_cases closes : (command.closesRow || command.autoPrecharges) = true
    · simp only [closes, if_true]
      rw [h.getElem?_closeStates r]
      simp
    · -- What is left opens no row and closes none.
      simp only [closes, if_false, Bool.false_eq_true]
      exact h r

theorem Shows.issue (h : b.Shows states) (command : Command) (row : Nat) (time : Time) :
    (final (Bank.issue command row time b)).Shows (b.statesAfterIssue command row states) := by
  unfold statesAfterIssue
  rcases b.issue_cases command row time with
    ⟨_, cause, refused, unchanged⟩ | ⟨_, latency, permitted, done⟩
  · rw [refused, unchanged]
    exact h
  · rw [permitted, done]
    exact h.accept command row time latency

theorem Shows.refreshClosed (h : b.Shows states) (time closing : Time) :
    (final (Bank.refreshClosed time closing b)).Shows states := by
  rw [refreshClosed_apply]
  cases b.permit .refsb 0 with
  | error cause => exact h
  | ok refreshing => exact h.congr rfl rfl

theorem Shows.refresh (h : b.Shows states) (time : Time) :
    (final (Bank.refresh time b)).Shows (b.statesAfter states (.refresh time)) := by
  have closed : (final (closeRow time b)).Shows (b.statesAfter states (.refresh time)) := by
    rw [closeRow_apply, statesAfter]
    cases b.openRow with
    | none => exact h
    | some row => exact h.issue .pre row time
  rw [refresh_eq]
  cases run : closeRow time b with
  | error cause b₁ =>
      rw [bind_of_error run]
      rwa [run] at closed
  | ok closing b₁ =>
      rw [bind_of_ok run]
      rw [run] at closed
      exact Shows.refreshClosed closed time closing

theorem Shows.perform (h : b.Shows states) (op : Operation) :
    (b.perform op).Shows (b.statesAfter states op) := by
  cases op with
  | issue command row time => exact h.issue command row time
  | refresh time => exact h.refresh time
  | setRefreshInterval interval => exact h.congr rfl rfl
  | setHot hot =>
      simp only [Bank.perform, Bank.setHot]
      split
      · exact h
      · exact h.congr rfl rfl
  | resetActivity => exact h.congr rfl rfl

theorem Shows.run (h : b.Shows states) (ops : List Operation) :
    (b.run ops).Shows (b.statesAfterRun states ops) := by
  induction ops generalizing b states with
  | nil => exact h
  | cons op ops ih => exact ih (h.perform op)

theorem ofSize_shows (size rowSize : Nat) (speed : Speed) :
    (ofSize size rowSize speed).Shows
      (List.replicate (ofSize size rowSize speed).rows .closed) := by
  intro row
  rw [List.getElem?_replicate, rowState?]
  by_cases within : row < (ofSize size rowSize speed).rows
  · rw [if_pos within, if_neg (Nat.not_le.2 within)]
    rfl
  · rw [if_neg within, if_pos (Nat.not_lt.1 within)]

/-- Wherever operations lead a bank, one row at most is open, and if each row has a state of its own
that commands write, it is the only one whose state is open.  There is an open row exactly after an
activation and after an access without precharge; the commands that nothing may precede are never
accepted; and the clock does not go back.  A command is refused exactly if its row is missing, if it
is one to a column and its row is not open, or if it may not follow the last command, and it has
changed nothing then. -/
theorem run_orderly (size rowSize : Nat) (speed : Speed) (ops : List Operation) :
    let start := ofSize size rowSize speed
    let b := start.run ops
    let states := start.statesAfterRun (List.replicate start.rows .closed) ops
    (∀ row, states[row]? = b.rowState? row ∧ (states[row]? = some .opened ↔ b.openRow = some row)) ∧
    (b.openRow.isSome = true ↔ b.last = .act ∨ b.last = .rd ∨ b.last = .wr) ∧
    b.last ∉ [.prea, .ref, .pde, .pdx, .sre, .srx] ∧
    (∀ op, b.clock ≤ (b.perform op).clock) ∧
    ∀ command row time,
      ((∃ cause left, issue command row time b = .error cause left) ↔
        b.rowCount ≤ row ∨ command.isColumn = true ∧ b.openRow ≠ some row ∨
          command.isColumn = false ∧ b.speed.latency? b.last command = none) ∧
      ∀ cause left, issue command row time b = .error cause left → left = b := by
  intro start b states
  have orderly : b.Orderly := (start.run_evolves ops).orderly (ofSize_orderly size rowSize speed)
  have shows_ : b.Shows states := (ofSize_shows size rowSize speed).run ops
  refine ⟨fun row => ⟨shows_ row, ?_⟩, orderly.openRow_isSome_iff, orderly.last_notMem,
    fun op => (b.perform_evolves op).clock, b.issue_error_iff⟩
  rw [shows_ row]
  exact orderly.rowState?_eq_opened_iff

end Bank

end StackedCache
