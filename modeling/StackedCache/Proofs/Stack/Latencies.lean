import Mathlib.Data.List.Induction
import StackedCache.Proofs.Stack.Accesses
import StackedCache.Proofs.Stack.Deadlines

/-!
# Latencies read off the requests

Without refreshes, the time a bank takes for a request is known from the requests alone: from its
own row and direction, and from those of the last request for the same bank.  What matters of the past
is the row that is open, and how long it takes to close it.  When the requests come, and what the
other banks are asked for, is of no account.

`Bank.Recalls` says that a bank is where its last request has left it, and `serveAll_latencies`
draws the conclusion for runs of any length.
-/

namespace StackedCache

/-- A row of a bank is read or written. -/
structure RowAccess where
  access : Access
  row : Nat
  deriving DecidableEq, Repr

/-- A request to a vault, at some time. -/
structure VaultRequest extends RowAccess where
  bank : Nat
  time : Time

/-! ## What requests take -/

namespace Speed

/-- Cycles from the activation of a row to a column of it. -/
def columnCycles (s : Speed) : Access → Nat
  | .read => s.rcdr.toNat
  | .write => s.rcdw.toNat

/-- Cycles from a column to the precharge after it. -/
def closingCycles (s : Speed) : Access → Nat
  | .read => s.rtp.toNat
  | .write => s.writeRecovery

/-- The cycles of a request, given the bank's previous one. -/
def requestCycles (s : Speed) (autoPrecharge : Bool) (previous : Option RowAccess)
    (a : RowAccess) : Nat :=
  if autoPrecharge then s.rp.toNat + s.columnCycles a.access + s.closingCycles a.access
  else
    match previous with
    | none => s.rp.toNat + s.columnCycles a.access
    | some p =>
        if p.row = a.row then s.columnCycles a.access
        else s.closingCycles p.access + s.rp.toNat + s.columnCycles a.access

/-- The cycles until a row is open in a bank that recalls an access. -/
def openingCycles (s : Speed) (recalled : Option RowAccess) (row : Nat) : Nat :=
  match recalled with
  | none => s.rp.toNat
  | some p => if p.row = row then 0 else s.closingCycles p.access + s.rp.toNat

end Speed

/-- What a bank recalls of its accesses: the last one, unless its row is closed again. -/
def recalled (autoPrecharge : Bool) (previous : Option RowAccess) : Option RowAccess :=
  if autoPrecharge then none else previous

/-- A request is made up of the opening of its row, the column and the closing. -/
theorem Speed.requestCycles_eq (s : Speed) (autoPrecharge : Bool) (previous : Option RowAccess)
    (a : RowAccess) :
    s.requestCycles autoPrecharge previous a =
      s.openingCycles (recalled autoPrecharge previous) a.row + s.columnCycles a.access +
        if autoPrecharge then s.closingCycles a.access else 0 := by
  cases autoPrecharge with
  | true => rfl
  | false =>
      cases previous with
      | none => rfl
      | some p =>
          by_cases same : p.row = a.row <;>
            simp [requestCycles, openingCycles, recalled, same]

/-- What a bank counts of its accesses. -/
inductive AccessCounter where
  | reads
  | writes
  | rowHits
  deriving DecidableEq, Repr

namespace AccessCounter

def value : AccessCounter → Activity → Nat
  | reads, a => a.reads
  | writes, a => a.writes
  | rowHits, a => a.rowHits

/-- Whether an access is counted, given the bank's previous one. -/
def counts (autoPrecharge : Bool) (previous : Option RowAccess) (a : RowAccess) :
    AccessCounter → Bool
  | reads => a.access = .read
  | writes => a.access = .write
  | rowHits => !autoPrecharge && previous.map (·.row) = some a.row

/-- Whether a command is counted. -/
def countsCommand (command : Command) (rowHit : Bool) : AccessCounter → Bool
  | reads => command = .rd || command = .rda
  | writes => command.isWrite
  | rowHits => rowHit

theorem value_record (c : AccessCounter) (a : Activity) (command : Command) (latency : Time)
    (rowHit : Bool) :
    c.value (a.record command latency rowHit) =
      c.value a + (c.countsCommand command rowHit).toNat := by
  cases c <;> cases command <;> cases rowHit <;> rfl

/-- A column is counted as its access is. -/
theorem countsCommand_column (c : AccessCounter) {autoPrecharge rowHit : Bool}
    {previous : Option RowAccess} {a : RowAccess}
    (hit : rowHit = true ↔ (recalled autoPrecharge previous).map (·.row) = some a.row) :
    c.countsCommand (Bank.columnCommand a.access) rowHit = c.counts autoPrecharge previous a := by
  rcases a with ⟨access, row⟩
  cases c with
  | reads => cases access <;> rfl
  | writes => cases access <;> rfl
  | rowHits =>
      have counted : rowHit = true ↔
          (!autoPrecharge && previous.map (·.row) = some row) = true := by
        cases autoPrecharge <;> simpa [recalled] using hit
      exact Bool.eq_iff_iff.2 counted

/-- Banks count apart from each other. -/
theorem value_total (c : AccessCounter) (activities : List Activity) :
    c.value (.total activities) = (activities.map c.value).sum := by
  have onto (start : Activity) : c.value (activities.foldl (· + ·) start) =
      c.value start + (activities.map c.value).sum := by
    induction activities generalizing start with
    | nil => rfl
    | cons a activities ih =>
        have sum : c.value (start + a) = c.value start + c.value a := by cases c <;> rfl
        rw [List.foldl_cons, ih, sum, List.map_cons, List.sum_cons, Nat.add_assoc]
  have none : c.value {} = 0 := by cases c <;> rfl
  rw [Activity.total, onto, none, Nat.zero_add]

end AccessCounter

/-! ## Accesses and what came before them -/

section Past

variable {α β : Type}

/-- Each element with a view of those before it. -/
def withPast (f : List α → α → β) (l : List α) : List β := l.mapIdx fun i a => f (l.take i) a

theorem withPast_concat (f : List α → α → β) (l : List α) (a : α) :
    withPast f (l ++ [a]) = withPast f l ++ [f l a] := by
  have before : (l.mapIdx fun i b => f ((l ++ [a]).take i) b) =
      l.mapIdx fun i b => f (l.take i) b := by
    refine List.ext_getElem (by simp) fun i h _ => ?_
    have inside : i ≤ l.length := Nat.le_of_lt (by simpa using h)
    simp only [List.getElem_mapIdx, List.take_append_of_le_length inside]
  rw [withPast, List.mapIdx_concat, before, List.take_left]
  rfl

theorem length_withPast (f : List α → α → β) (l : List α) : (withPast f l).length = l.length :=
  List.length_mapIdx

end Past

namespace RowAccess

/-- The accesses of one bank, in order. -/
def ofBank (bank : Nat) (qs : List VaultRequest) : List RowAccess :=
  (qs.filter (·.bank = bank)).map (·.toRowAccess)

/-- Each access of a bank, with the one before it. -/
def paired (accesses : List RowAccess) : List (Option RowAccess × RowAccess) :=
  withPast (fun past a => (past.getLast?, a)) accesses

/-- Each access of a vault, with the one before it in the same bank. -/
def history (qs : List VaultRequest) : List (Option RowAccess × RowAccess) :=
  withPast (fun past q => ((ofBank q.bank past).getLast?, q.toRowAccess)) qs

/-- How many of the accesses are counted. -/
def tally (autoPrecharge : Bool) (pairs : List (Option RowAccess × RowAccess))
    (c : AccessCounter) : Nat :=
  pairs.countP fun (previous, a) => c.counts autoPrecharge previous a

theorem ofBank_concat (bank : Nat) (qs : List VaultRequest) (q : VaultRequest) :
    ofBank bank (qs ++ [q]) =
      if q.bank = bank then ofBank bank qs ++ [q.toRowAccess] else ofBank bank qs := by
  by_cases here : q.bank = bank <;> simp [ofBank, List.filter_append, here]

theorem paired_concat (accesses : List RowAccess) (a : RowAccess) :
    paired (accesses ++ [a]) = paired accesses ++ [(accesses.getLast?, a)] :=
  withPast_concat _ accesses a

theorem history_concat (qs : List VaultRequest) (q : VaultRequest) :
    history (qs ++ [q]) = history qs ++ [((ofBank q.bank qs).getLast?, q.toRowAccess)] :=
  withPast_concat _ qs q

theorem tally_concat (autoPrecharge : Bool) (pairs : List (Option RowAccess × RowAccess))
    (previous : Option RowAccess) (a : RowAccess) (c : AccessCounter) :
    tally autoPrecharge (pairs ++ [(previous, a)]) c =
      tally autoPrecharge pairs c + (c.counts autoPrecharge previous a).toNat := by
  cases counted : c.counts autoPrecharge previous a <;>
    simp [tally, List.countP_append, counted]

/-- What becomes of the requests for one bank is decided by the accesses of this bank. -/
theorem results_of_bank {β : Type} (f : Option RowAccess × RowAccess → β) (bank : Nat)
    (qs : List VaultRequest) :
    ((qs.zip ((history qs).map f)).filter (·.1.bank = bank)).map (·.2) =
      (paired (ofBank bank qs)).map f := by
  induction qs using List.reverseRecOn with
  | nil => rfl
  | append_singleton qs q ih =>
      have same : qs.length = ((history qs).map f).length := by
        simpa [history] using (length_withPast _ qs).symm
      by_cases here : q.bank = bank
      · subst here
        simpa [history_concat, ofBank_concat, paired_concat, List.zip_append same] using ih
      · simpa [history_concat, ofBank_concat, List.zip_append same, here] using ih

end RowAccess

/-! ## Banks -/

namespace Bank

variable {b : Bank} {speed : Speed} {rows row : Nat} {openRow : Option Nat} {last : Command}
  {tally : AccessCounter → Nat} {autoPrecharge : Bool} {previous : Option RowAccess}

/-- A bank without refreshes, after a command that has left this row open. -/
structure Stands (speed : Speed) (rows : Nat) (openRow : Option Nat) (last : Command)
    (tally : AccessCounter → Nat) (b : Bank) : Prop where
  speed : b.speed = speed
  rowCount : b.rowCount = rows
  refreshInterval : b.refreshInterval = .zero
  openRow : b.openRow = openRow
  last : b.last = last
  tally : ∀ c : AccessCounter, c.value b.activity = tally c

theorem Stands.refreshDue (h : b.Stands speed rows openRow last tally) (time : Time) :
    b.refreshDue time = false := by
  simp [Bank.refreshDue, h.refreshInterval]

/-- A legal command takes its cycles and is counted. -/
theorem Stands.issue (h : b.Stands speed rows openRow last tally) (command : Command) {cycles : Nat}
    {openRow' : Option Nat} {tally' : AccessCounter → Nat} (row_lt : row < rows)
    (opened : command.isColumn = true → openRow = some row)
    (legal : speed.transitionCycles? (if command.isColumn then .act else last) command =
      some cycles)
    (left : b.openAfter command row = openRow')
    (counted : ∀ c, tally' c =
      tally c + (c.countsCommand command (command.isColumn && last ≠ .act)).toNat)
    (time : Time) :
    Succeeds (issue command row time) b fun latency b' =>
      latency = speed.cycles cycles ∧ b'.Stands speed rows openRow' command tally' := by
  have follows : b.speed.latency? (if command.isColumn then .act else b.last) command =
      some (speed.cycles cycles) := by
    rw [h.speed, h.last, Speed.latency?, legal]
    rfl
  have permitted : b.permit command row = .ok (speed.cycles cycles) :=
    permit_eq_ok_iff.2 ⟨h.rowCount ▸ row_lt, fun column => h.openRow.trans (opened column), follows⟩
  refine ⟨speed.cycles cycles, b.accept command row time (speed.cycles cycles), ?_, rfl, h.speed,
    h.rowCount, h.refreshInterval, left, rfl, fun c => ?_⟩
  · rw [issue_apply, permitted]
  · rw [accept, AccessCounter.value_record, h.tally, h.last, counted]

theorem Stands.act (h : b.Stands speed rows none .pre tally) (row_lt : row < rows) (time : Time) :
    Succeeds (Bank.issue .act row time) b fun latency b' =>
      latency = speed.cycles speed.rp.toNat ∧ b'.Stands speed rows (some row) .act tally :=
  h.issue .act row_lt nofun rfl rfl (fun c => by cases c <;> rfl) time

/-- The column before it decides how long a precharge takes. -/
theorem Stands.pre {access : Access}
    (h : b.Stands speed rows openRow (columnCommand access) tally) (row_lt : row < rows)
    (time : Time) :
    Succeeds (Bank.issue .pre row time) b fun latency b' =>
      latency = speed.cycles (speed.closingCycles access) ∧
        b'.Stands speed rows none .pre tally := by
  have legal : speed.transitionCycles? (columnCommand access) .pre =
      some (speed.closingCycles access) := by
    cases access <;> rfl
  exact h.issue .pre row_lt nofun legal rfl (fun c => by cases c <;> rfl) time

/-- A column is a row hit unless its row has just been opened. -/
theorem Stands.column (h : b.Stands speed rows (some row) last tally) (access : Access)
    (row_lt : row < rows) (time : Time) :
    Succeeds (Bank.issue (columnCommand access) row time) b fun latency b' =>
      latency = speed.cycles (speed.columnCycles access) ∧
        b'.Stands speed rows (some row) (columnCommand access) fun c =>
          tally c + (c.countsCommand (columnCommand access) (last ≠ .act)).toNat := by
  cases access with
  | read => exact h.issue .rd row_lt (fun _ => rfl) rfl h.openRow (fun _ => rfl) time
  | write => exact h.issue .wr row_lt (fun _ => rfl) rfl h.openRow (fun _ => rfl) time

/-- The command after which a bank waits for a request. -/
def lastCommand : Option RowAccess → Command
  | none => .pre
  | some a => columnCommand a.access

/-- A bank that waits for a request where this access has left it. -/
structure Recalls (speed : Speed) (rows : Nat) (access : Option RowAccess)
    (tally : AccessCounter → Nat) (b : Bank) : Prop where
  stands : b.Stands speed rows (access.map (·.row)) (lastCommand access) tally
  present : ∀ a ∈ access, a.row < rows

/-- A row is opened at once, or after another one has been closed, unless it is open. -/
theorem Recalls.bring {access : Option RowAccess} (h : b.Recalls speed rows access tally)
    (row_lt : row < rows) (time : Time) :
    Succeeds (bring row time) b fun latency b' =>
      latency = speed.cycles (speed.openingCycles access row) ∧
        ∃ last, b'.Stands speed rows (some row) last tally ∧
          (last ≠ .act ↔ access.map (·.row) = some row) := by
  refine .get_bind ?_
  rcases h with ⟨stands, present⟩
  rw [stands.openRow]
  cases access with
  | none => exact (stands.act row_lt time).mono fun _ _ ⟨eq, stands⟩ => ⟨eq, .act, stands, by simp⟩
  | some a =>
      simp only [Option.map_some]
      by_cases same : a.row = row
      · subst same
        have column : columnCommand a.access ≠ .act := by cases a.access <;> decide
        simp only [if_true]
        refine .pure ⟨?_, columnCommand a.access, stands, by simp [column]⟩
        rw [Speed.openingCycles, if_pos rfl, Speed.cycles_zero]
      · simp only [same, if_false]
        refine (stands.pre (present a rfl) time).bind ?_
        rintro closing b₁ ⟨rfl, stands⟩
        refine (stands.act row_lt _).bind ?_
        rintro opening b₂ ⟨rfl, stands⟩
        refine .pure ⟨?_, .act, stands, by simp [same]⟩
        rw [Speed.openingCycles, if_neg same, Speed.cycles_add]

/-- A request takes the time that the recalled access leaves it, and is recalled in turn. -/
theorem Recalls.serve (h : b.Recalls speed rows (recalled autoPrecharge previous) tally)
    (a : RowAccess) (row_lt : a.row < rows) (time : Time) :
    Succeeds (serve autoPrecharge a.access a.row time) b fun latency b' =>
      latency = speed.cycles (speed.requestCycles autoPrecharge previous a) ∧
        b'.Recalls speed rows (recalled autoPrecharge (some a)) fun c =>
          tally c + (c.counts autoPrecharge previous a).toNat := by
  rw [Succeeds, serve_apply, h.stands.refreshDue, if_neg Bool.false_ne_true]
  refine Succeeds.bind (h.bring row_lt _) ?_
  rintro opening b₁ ⟨rfl, last, stands, hit⟩
  refine (stands.column a.access row_lt _).bind ?_
  rintro column b₂ ⟨rfl, stands⟩
  have counted (c : AccessCounter) : c.countsCommand (columnCommand a.access) (last ≠ .act) =
      c.counts autoPrecharge previous a := c.countsCommand_column (by simpa using hit)
  simp only [counted] at stands
  have ready (opening column : Nat) :
      Time.zero + speed.cycles opening + speed.cycles column = speed.cycles (opening + column) := by
    calc
      Time.zero + speed.cycles opening + speed.cycles column
        = speed.cycles 0 + speed.cycles opening + speed.cycles column := by rw [speed.cycles_zero]
      _ = speed.cycles (0 + opening + column) := by rw [speed.cycles_add, speed.cycles_add]
      _ = speed.cycles (opening + column) := by rw [Nat.zero_add]
  cases autoPrecharge with
  | false =>
      refine .pure ⟨?_, stands, ?_⟩
      · rw [speed.requestCycles_eq]
        exact ready _ _
      · rintro _ ⟨⟩
        exact row_lt
  | true =>
      -- The row is closed again, and nothing is left of it.
      refine (stands.pre row_lt _).bind ?_
      rintro closing b₃ ⟨rfl, stands⟩
      refine .pure ⟨?_, stands, nofun⟩
      rw [speed.requestCycles_eq, ready, speed.cycles_add]
      rfl

end Bank

/-! ## Vaults -/

namespace Vault

open RowAccess

variable {v : Vault} {autoPrecharge : Bool} {speed : Speed} {banks rows : Nat}
  {past : List VaultRequest}

/-- Serves requests in order and returns their latencies. -/
def serveAll (qs : List VaultRequest) : VaultStep (List Time) :=
  qs.mapM fun q => request q.access q.bank q.row q.time

/-- All banks are where their past accesses have left them, and the counts are those of the past. -/
structure Recalls (autoPrecharge : Bool) (speed : Speed) (banks rows : Nat)
    (past : List VaultRequest) (v : Vault) : Prop where
  setting : v.autoPrecharge = autoPrecharge
  size : v.banks.size = banks
  requests : v.requests = past.length
  total : ∀ c : AccessCounter, c.value v.activity.total = tally autoPrecharge (history past) c
  recalls : ∀ (bank : Nat) (b : Bank), v.banks[bank]? = some b →
    b.Recalls speed rows (recalled autoPrecharge (ofBank bank past).getLast?)
      (tally autoPrecharge (paired (ofBank bank past)))

theorem value_activity (v : Vault) (c : AccessCounter) :
    c.value v.activity.total = (v.banks.toList.map fun b => c.value b.activity).sum := by
  rw [activity, c.value_total, List.map_map]
  rfl

theorem ofSizes_recalls (id vaultSize bankSize rowSize : Nat) (autoPrecharge : Bool)
    (speed : Speed) :
    (ofSizes id vaultSize bankSize rowSize autoPrecharge speed).Recalls autoPrecharge speed
      (vaultSize / bankSize) (Bank.ofSize bankSize rowSize speed).rowCount [] := by
  refine ⟨rfl, Array.size_replicate, rfl, fun c => ?_, fun bank b found => ?_⟩
  · have fresh : c.value {} = 0 := by cases c <;> rfl
    rw [value_activity]
    refine sum_map_eq_zero fun b listed => ?_
    simp only [ofSizes, Array.toList_replicate] at listed
    rw [List.eq_of_mem_replicate listed]
    exact fresh
  · simp only [ofSizes, Array.getElem?_replicate] at found
    split at found
    · cases found
      have nothing : recalled autoPrecharge (ofBank bank []).getLast? = none := by
        cases autoPrecharge <;> rfl
      rw [nothing]
      refine ⟨⟨rfl, rfl, rfl, rfl, rfl, fun c => by cases c <;> rfl⟩, fun a held => ?_⟩
      cases held
    · cases found

/-- One more request is served in the time that the past leaves it. -/
theorem Recalls.request (h : v.Recalls autoPrecharge speed banks rows past) (q : VaultRequest)
    (inside : q.bank < banks) (present : q.row < rows) :
    Succeeds (request q.access q.bank q.row q.time) v fun latency v' =>
      latency = speed.cycles
          (speed.requestCycles autoPrecharge (ofBank q.bank past).getLast? q.toRowAccess) ∧
        v'.Recalls autoPrecharge speed banks rows (past ++ [q]) := by
  rcases h with ⟨rfl, size, requests, total, recalls⟩
  have held : ∃ b, v.banks[q.bank]? = some b := ⟨_, Array.getElem?_eq_getElem (size ▸ inside)⟩
  rcases held with ⟨b, found⟩
  have before := recalls q.bank b found
  rcases before.serve q.toRowAccess present q.time with ⟨latency, b', served, rfl, after⟩
  refine ⟨_, _, request_of_serve found served, rfl, rfl, ?_, ?_, fun c => ?_, ?_⟩
  · exact (Array.size_setIfInBounds ..).trans size
  · simp [requests]
  · -- The total grows as the bank does that has served the request.
    have grown : c.value b'.activity = c.value b.activity +
        (c.counts v.autoPrecharge (ofBank q.bank past).getLast? q.toRowAccess).toNat := by
      rw [after.stands.tally, before.stands.tally]
    have total := total c
    rw [value_activity] at total ⊢
    rw [history_concat, tally_concat, ← total]
    exact sum_map_setIfInBounds (fun b => c.value b.activity) found grown
  · refine forall_setIfInBounds_of_ne (fun bank b apart found => ?_) ?_
    · simpa [ofBank_concat, Ne.symm apart] using recalls bank b found
    · have one : tally v.autoPrecharge (paired (ofBank q.bank (past ++ [q]))) = fun c =>
          tally v.autoPrecharge (paired (ofBank q.bank past)) c +
            (c.counts v.autoPrecharge (ofBank q.bank past).getLast? q.toRowAccess).toNat :=
        funext fun c => by rw [ofBank_concat, if_pos rfl, paired_concat, tally_concat]
      rw [one]
      simpa [ofBank_concat] using after

theorem serveAll_concat (qs : List VaultRequest) (q : VaultRequest) :
    serveAll (qs ++ [q]) = (do
      let latencies ← serveAll qs
      let latency ← request q.access q.bank q.row q.time
      return latencies ++ [latency]) := by
  simp [serveAll, List.mapM_append]

/-- From rest and without refreshes, every run of requests for banks and rows of the vault is served.
What each one takes is read off its own access and the one before it in the same bank, so the
latencies of one bank are those that its own accesses give.  Counted are the reads, the writes, and
the accesses to the row of the bank's previous one, of which there are none if rows are closed after
each request. -/
theorem serveAll_latencies (id : Nat) {vaultSize bankSize rowSize : Nat} (autoPrecharge : Bool)
    {speed : Speed} (qs : List VaultRequest) (inside : ∀ q ∈ qs, q.bank < vaultSize / bankSize)
    (present : ∀ q ∈ qs, q.row < (Bank.ofSize bankSize rowSize speed).rowCount) :
    let start := ofSizes id vaultSize bankSize rowSize autoPrecharge speed
    let latency := fun (previous, a) => speed.cycles (speed.requestCycles autoPrecharge previous a)
    ∃ latencies v, serveAll qs start = .ok latencies v ∧
      latencies = (history qs).map latency ∧
      (∀ bank, ((qs.zip latencies).filter (·.1.bank = bank)).map (·.2) =
        (paired (ofBank bank qs)).map latency) ∧
      v.requests = qs.length ∧
      (∀ c : AccessCounter, c.value v.activity.total = tally autoPrecharge (history qs) c) ∧
      ∀ bank, bank < vaultSize / bankSize → ∃ b, v.banks[bank]? = some b ∧
        ∀ c : AccessCounter,
          c.value b.activity = tally autoPrecharge (paired (ofBank bank qs)) c := by
  intro start latency
  have served : Succeeds (serveAll qs) start fun latencies v =>
      latencies = (history qs).map latency ∧ v.Recalls autoPrecharge speed (vaultSize / bankSize)
        (Bank.ofSize bankSize rowSize speed).rowCount qs := by
    -- The last request comes after all the others, and the invariant is about what came before.
    induction qs using List.reverseRecOn with
    | nil => exact .pure ⟨rfl, ofSizes_recalls ..⟩
    | append_singleton qs q ih =>
        rw [List.forall_mem_append, List.forall_mem_singleton] at inside present
        rw [serveAll_concat]
        refine (ih inside.1 present.1).bind ?_
        rintro latencies v ⟨rfl, recalls⟩
        refine (recalls.request q inside.2 present.2).bind ?_
        rintro _ v' ⟨rfl, recalls⟩
        refine .pure ⟨?_, recalls⟩
        rw [history_concat, List.map_append]
        rfl
  rcases served with ⟨latencies, v, run, rfl, recalls⟩
  refine ⟨(history qs).map latency, v, run, rfl, fun bank => results_of_bank latency bank qs,
    recalls.requests, recalls.total, fun bank there => ?_⟩
  have found := Array.getElem?_eq_getElem (recalls.size ▸ there : bank < v.banks.size)
  exact ⟨_, found, (recalls.recalls bank _ found).stands.tally⟩

/-- Two banks are asked in turn: a row is opened in each, then one of them is accessed again, closed
after a read, and closed after a write. -/
theorem serveAll_latencies_in_turn :
    let qs : List VaultRequest :=
      [⟨⟨.write, 1⟩, 0, ⟨0⟩⟩, ⟨⟨.read, 0⟩, 1, ⟨500⟩⟩, ⟨⟨.read, 1⟩, 0, ⟨900⟩⟩,
        ⟨⟨.write, 2⟩, 0, ⟨100⟩⟩, ⟨⟨.read, 1⟩, 0, ⟨90000⟩⟩]
    (∀ q ∈ qs, q.bank < 2048 / 1024) ∧ (∀ q ∈ qs, q.row < (Bank.ofSize 1024 256 {}).rowCount) ∧
      ∃ v, serveAll qs (ofSizes 0 2048 1024 256 false {}) =
          .ok [⟨26000⟩, ⟨28000⟩, ⟨14000⟩, ⟨40000⟩, ⟨56000⟩] v ∧
        v.activity.total.reads = 3 ∧ v.activity.total.writes = 2 ∧
        v.activity.total.rowHits = 1 := by
  intro qs
  have inside : ∀ q ∈ qs, q.bank < 2048 / 1024 := by decide
  have present : ∀ q ∈ qs, q.row < (Bank.ofSize 1024 256 {}).rowCount := by decide
  rcases serveAll_latencies 0 false qs inside present with ⟨latencies, v, run, eq, _, _, total, _⟩
  have taken : latencies = [⟨26000⟩, ⟨28000⟩, ⟨14000⟩, ⟨40000⟩, ⟨56000⟩] := by
    rw [eq]
    decide +kernel
  have counted : (tally false (history qs) .reads, tally false (history qs) .writes,
      tally false (history qs) .rowHits) = (3, 2, 1) := by decide +kernel
  simp only [Prod.mk.injEq] at counted
  exact ⟨inside, present, v, taken ▸ run, (total .reads).trans counted.1,
    (total .writes).trans counted.2.1, (total .rowHits).trans counted.2.2⟩

end Vault

end StackedCache
