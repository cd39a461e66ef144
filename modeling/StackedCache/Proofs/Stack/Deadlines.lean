import StackedCache.Proofs.Stack.Elsewhere
import StackedCache.Proofs.Stack.Refresh
import StackedCache.Proofs.Stack.Refusal

/-!
# When a bank is refreshed

A request that comes at the date of the next refresh or later refreshes its bank first.  A refresh
sets the next date one interval after its own end.  But a change of the mark for hot banks sets it
one interval after the clock of the bank, which may be long after that end.  So a bank whose mark
changes between its requests is refreshed later than one whose mark stays, or never.

`RefreshLog` keeps the two times apart, and `run_refreshes` says exactly when a request refreshes
its bank.
-/

namespace StackedCache

/-! ## Banks -/

namespace Bank

variable {b b' : Bank} {row : Nat} {time refreshing : Time}

/-- Serves a request for a row once the refresh before it has taken its time. -/
def attend (autoPrecharge : Bool) (access : Access) (row : Nat) (time refreshing : Time) :
    BankStep Time := do
  let opening ← bring row (time + refreshing)
  let ready := refreshing + opening
  let column ← issue (columnCommand access) row (time + ready)
  let served := ready + column
  if autoPrecharge then
    let closing ← issue .pre row (time + served)
    return served + closing
  else
    return served

theorem serve_apply (autoPrecharge : Bool) (access : Access) (row : Nat) (time : Time) (b : Bank) :
    serve autoPrecharge access row time b =
      if b.refreshDue time then (refresh time >>= attend autoPrecharge access row time) b
      else attend autoPrecharge access row time .zero b := by
  have read : serve autoPrecharge access row time b =
      (if b.refreshDue time then refresh time >>= attend autoPrecharge access row time
        else Pure.pure .zero >>= attend autoPrecharge access row time) b := rfl
  rw [read]
  split <;> rfl

/-- The banks have the same date, interval and mark, and as many refreshes. -/
structure SameDate (b b' : Bank) : Prop where
  next : b'.nextRefresh = b.nextRefresh
  refreshInterval : b'.refreshInterval = b.refreshInterval
  hot : b'.hot = b.hot
  refreshes : b'.activity.refreshes = b.activity.refreshes

instance : IsPreorder Bank SameDate where
  refl _ := ⟨rfl, rfl, rfl, rfl⟩
  trans _ _ _ h h' := ⟨h'.next.trans h.next, h'.refreshInterval.trans h.refreshInterval,
    h'.hot.trans h.hot, h'.refreshes.trans h.refreshes⟩

theorem interval_congr (refreshInterval : b'.refreshInterval = b.refreshInterval)
    (hot : b'.hot = b.hot) : b'.interval = b.interval := by
  rw [interval, interval, refreshInterval, hot]

theorem record_refreshes (a : Activity) {command : Command} (ne : command ≠ .ref)
    (ne' : command ≠ .refsb) (latency : Time) (rowHit : Bool) :
    (a.record command latency rowHit).refreshes = a.refreshes := by
  cases command <;> first | contradiction | (cases rowHit <;> rfl)

/-- Other commands than those for a refresh leave its date alone. -/
theorem issue_sameDate {command : Command} (ne : command ≠ .ref) (ne' : command ≠ .refsb)
    (row : Nat) (time : Time) : Leads SameDate (issue command row time) b := by
  unfold Leads
  rcases b.issue_cases command row time with ⟨_, cause, _, refused⟩ | ⟨_, latency, _, done⟩
  · rw [refused]
    exact refl b
  · rw [done]
    exact ⟨rfl, rfl, rfl, record_refreshes b.activity ne ne' latency _⟩

section Leads

variable {R : Bank → Bank → Prop} [IsPreorder Bank R]

theorem bring_leads (issues : ∀ {command}, command ≠ .ref → command ≠ .refsb →
      ∀ row time (b : Bank), Leads R (issue command row time) b)
    (row : Nat) (time : Time) (b : Bank) : Leads R (bring row time) b := by
  have act : Command.act ≠ .ref ∧ Command.act ≠ .refsb := by decide
  have pre : Command.pre ≠ .ref ∧ Command.pre ≠ .refsb := by decide
  refine .bind (.pure b) fun b₁ _ _ => ?_
  split
  · rename_i current _
    refine .ite (.pure _) (.bind (issues pre.1 pre.2 current time _) fun closing _ _ => ?_)
    exact .bind (issues act.1 act.2 row _ _) fun _ _ _ => .pure _
  · exact issues act.1 act.2 row time _

/-- Once its bank has been refreshed, a request leads where its commands do, none of which refreshes
the bank again. -/
theorem attend_leads (issues : ∀ {command}, command ≠ .ref → command ≠ .refsb →
      ∀ row time (b : Bank), Leads R (issue command row time) b)
    (autoPrecharge : Bool) (access : Access) (row : Nat) (time refreshing : Time) (b : Bank) :
    Leads R (attend autoPrecharge access row time refreshing) b := by
  have column : columnCommand access ≠ .ref ∧ columnCommand access ≠ .refsb := by
    cases access <;> decide
  have pre : Command.pre ≠ .ref ∧ Command.pre ≠ .refsb := by decide
  refine .bind (bring_leads issues row _ b) fun opening _ _ => ?_
  refine .bind (issues column.1 column.2 row _ _) fun latency _ _ => ?_
  refine .ite ?_ (.pure _)
  exact .bind (issues pre.1 pre.2 row _ _) fun _ _ _ => .pure _

end Leads

theorem attend_sameDate (autoPrecharge : Bool) (access : Access) (row : Nat)
    (time refreshing : Time) :
    Leads SameDate (attend autoPrecharge access row time refreshing) b :=
  attend_leads (fun ne ne' row time _ => issue_sameDate ne ne' row time) autoPrecharge access row
    time refreshing b

theorem Ready.orderly {rows : Nat} (h : b.Ready rows) : b.Orderly := by
  rcases h.waiting with closed | ⟨row, opened⟩
  · exact .closed closed
  · exact .opened opened

/-- A bank that waits for a request can be refreshed. -/
theorem Ready.refreshed {rows : Nat} (h : b.Ready rows) (time : Time) :
    ∃ latency b', refresh time b = .ok latency b' ∧ b.Refreshed time latency b' := by
  have positive : 0 < b.rowCount := h.rowCount ▸ h.positive
  rcases h.orderly.refresh_cases positive time with ⟨precharged, _⟩ | ⟨_, done⟩
  · exact absurd precharged (not_precharged h.waiting)
  · exact done

/-- A request refreshes its bank first if the refresh is due, and only then.  Serving it leaves the
date alone. -/
theorem Ready.serve_cases {rows : Nat} (h : b.Ready rows) (autoPrecharge : Bool) (access : Access)
    (row : Nat) (time : Time) :
    (b.refreshDue time = true ∧ ∃ refreshing b₁, refresh time b = .ok refreshing b₁ ∧
        b.Refreshed time refreshing b₁ ∧
        serve autoPrecharge access row time b =
          attend autoPrecharge access row time refreshing b₁ ∧
        b₁.SameDate (final (serve autoPrecharge access row time b))) ∨
      (b.refreshDue time = false ∧
        serve autoPrecharge access row time b =
          attend autoPrecharge access row time .zero b ∧
        b.SameDate (final (serve autoPrecharge access row time b))) := by
  rw [serve_apply]
  cases due : b.refreshDue time with
  | true =>
      rcases h.refreshed time with ⟨refreshing, b₁, done, refreshed⟩
      rw [if_pos rfl, bind_of_ok done]
      exact .inl ⟨rfl, refreshing, b₁, done, refreshed, rfl, attend_sameDate ..⟩
  | false =>
      rw [if_neg Bool.false_ne_true]
      exact .inr ⟨rfl, rfl, attend_sameDate ..⟩

end Bank

/-! ## Refreshes and marks -/

/-- When a bank was refreshed and when its mark changed. -/
structure RefreshLog where
  /-- The end of the last refresh, or the start. -/
  ended : Time := .zero
  /-- The clock of the bank when its mark changed last, if it has changed since then. -/
  changed : Option Time := none

namespace RefreshLog

/-- Where the interval in force began. -/
def begun (log : RefreshLog) : Time := log.changed.getD log.ended

/-- The log after an operation on the vault has led from one state of the bank to another. -/
def after (log : RefreshLog) (b b' : Bank) : Vault.Operation → RefreshLog
  | .request _ _ _ time =>
      -- The bank has been refreshed if one more refresh is counted.
      if b'.activity.refreshes = b.activity.refreshes then log
      else
        match Bank.refresh time b with
        | .ok latency _ => { ended := time + latency }
        | .error _ _ => log
  | .setHot _ _ => if b'.hot = b.hot then log else { log with changed := some b.clock }
  | .setRefreshInterval _ | .resetActivity => log

end RefreshLog

namespace Bank

variable {b : Bank} {rows bank : Nat} {interval time : Time} {log : RefreshLog}

/-- What becomes of one bank of a vault when an operation is performed on the vault. -/
def undergo (autoPrecharge : Bool) (bank : Nat) (b : Bank) : Vault.Operation → Bank
  | .request access there row time =>
      if there = bank then final (serve autoPrecharge access row time b) else b
  | .setRefreshInterval interval => b.setRefreshInterval interval
  | .setHot there hot => if there = bank then b.setHot hot else b
  | .resetActivity => b.resetActivity

/-- The date of the next refresh is one interval after the time where the log has it begin. -/
structure Dated (interval : Time) (log : RefreshLog) (b : Bank) : Prop where
  refreshInterval : b.refreshInterval = interval
  next : b.nextRefresh = log.begun + b.interval

theorem Dated.of_sameDate {b' : Bank} (h : b.Dated interval log) (same : b.SameDate b') :
    b'.Dated interval log := by
  refine ⟨same.refreshInterval.trans h.refreshInterval, ?_⟩
  rw [same.next, h.next, interval_congr same.refreshInterval same.hot]

theorem Dated.refreshDue_iff (h : b.Dated interval log) (on : interval ≠ .zero) :
    b.refreshDue time = true ↔ log.begun + b.interval ≤ time := by
  simp [refreshDue, h.refreshInterval, h.next, on]

theorem Dated.serve (h : b.Dated interval log) (ready : b.Ready rows) (autoPrecharge : Bool)
    (access : Access) (there row : Nat) (time : Time) :
    let b' := final (Bank.serve autoPrecharge access row time b)
    b'.Dated interval (log.after b b' (.request access there row time)) := by
  intro b'
  unfold RefreshLog.after
  rcases ready.serve_cases autoPrecharge access row time with
    ⟨_, refreshing, b₁, done, refreshed, _, same⟩ | ⟨_, _, same⟩
  · -- The refresh sets a new date, which the commands after it leave alone.
    have counted : b'.activity.refreshes ≠ b.activity.refreshes := by
      rw [same.refreshes, refreshed.counted]
      exact Nat.succ_ne_self _
    simp only [if_neg counted, done]
    refine Dated.of_sameDate ⟨refreshed.refreshInterval.trans h.refreshInterval, ?_⟩ same
    rw [refreshed.next, interval_congr refreshed.refreshInterval refreshed.hot]
    rfl
  · simp only [b', if_pos same.refreshes]
    exact h.of_sameDate same

theorem Dated.setHot (h : b.Dated interval log) (there : Nat) (hot : Bool) :
    (b.setHot hot).Dated interval (log.after b (b.setHot hot) (.setHot there hot)) := by
  unfold Bank.setHot RefreshLog.after
  by_cases same : b.hot = hot
  · simp only [if_pos same, if_true]
    exact h
  · have changed : ¬hot = b.hot := Ne.symm same
    simp only [if_neg same, schedule, if_neg changed]
    exact ⟨h.refreshInterval, rfl⟩

/-- Every operation keeps the log and the date of the next refresh together, unless it installs
another interval. -/
theorem Dated.undergo (h : b.Dated interval log) (ready : b.Ready rows) (autoPrecharge : Bool)
    {op : Vault.Operation} (kept : ∀ other, op ≠ .setRefreshInterval other) :
    (b.undergo autoPrecharge bank op).Dated interval
      (log.after b (b.undergo autoPrecharge bank op) op) := by
  cases op with
  | request access there row time =>
      simp only [Bank.undergo]
      split
      · exact h.serve ready autoPrecharge access there row time
      · simpa only [RefreshLog.after, if_true] using h
  | setRefreshInterval other => exact absurd rfl (kept other)
  | setHot there hot =>
      simp only [Bank.undergo]
      split
      · exact h.setHot there hot
      · simpa only [RefreshLog.after, if_true] using h
  | resetActivity => exact ⟨h.refreshInterval, h.next⟩

end Bank

/-! ## Vaults -/

namespace Vault

variable {v : Vault} {bank row banks rows : Nat} {time interval : Time} {log : RefreshLog}

/-- The log of a bank after operations in order. -/
def refreshLog (bank : Nat) : Vault → RefreshLog → List Operation → RefreshLog
  | _, log, [] => log
  | v, log, op :: ops =>
      let v' := v.perform op
      match v.banks[bank]?, v'.banks[bank]? with
      | some b, some b' => refreshLog bank v' (log.after b b' op) ops
      | _, _ => log

theorem request_eq (access : Access) (bank row : Nat) (time : Time) (v : Vault) :
    request access bank row time v =
      (onBank bank (Bank.serve v.autoPrecharge access row time) >>= fun latency =>
        (do
          modify fun v => { v with requests := v.requests + 1 }
          return latency : VaultStep Time)) v := rfl

/-- A request is served as its bank serves it. -/
theorem request_of_serve {b b' : Bank} {access : Access} {latency : Time}
    (found : v.banks[bank]? = some b)
    (served : Bank.serve v.autoPrecharge access row time b = .ok latency b') :
    request access bank row time v =
      .ok latency { v.withBank bank b' with requests := v.requests + 1 } := by
  have run : onBank bank (Bank.serve v.autoPrecharge access row time) v =
      .ok latency (v.withBank bank b') := by
    simp only [onBank, found, served]
  rw [request_eq, bind_of_ok run]
  rfl

theorem request_banks (access : Access) (bank row : Nat) (time : Time) (v : Vault) :
    (final (request access bank row time v)).banks =
      (final (onBank bank (Bank.serve v.autoPrecharge access row time) v)).banks := by
  rw [request_eq]
  cases run : onBank bank (Bank.serve v.autoPrecharge access row time) v with
  | ok latency v' =>
      rw [bind_of_ok run]
      rfl
  | error cause v' => rw [bind_of_error run]

/-- A step on one bank leaves the others as they are. -/
theorem onBank_getElem? {α : Type} {b : Bank} (found : v.banks[bank]? = some b) (there : Nat)
    (step : BankStep α) :
    (final (onBank there step v)).banks[bank]? =
      some (if there = bank then final (step b) else b) := by
  by_cases here : there = bank
  · subst here
    have inside : there < v.banks.size := (Array.getElem?_eq_some_iff.1 found).1
    have self (b' : Bank) : (v.withBank there b').banks[there]? = some b' := by
      simp only [withBank, Array.getElem?_setIfInBounds_self, if_pos inside]
    simp only [onBank, found, if_true]
    cases step b <;> exact self _
  · have same := onBank_sameBut there step (v := v) bank (Ne.symm here)
    rw [same, found, if_neg here]

/-- An operation on the vault is one on each of its banks. -/
theorem perform_getElem? {b : Bank} (found : v.banks[bank]? = some b) (op : Operation) :
    (v.perform op).banks[bank]? = some (b.undergo v.autoPrecharge bank op) := by
  cases op with
  | request access there row time =>
      rw [perform, request_banks]
      exact onBank_getElem? found there _
  | setRefreshInterval interval =>
      simp [perform, setRefreshInterval, mapBanks, found, Bank.undergo]
  | setHot there hot => exact onBank_getElem? found there _
  | resetActivity => simp [perform, resetActivity, mapBanks, found, Bank.undergo]

theorem run_dated {b : Bank} (ready : v.Ready banks rows) (found : v.banks[bank]? = some b)
    (dated : b.Dated interval log) (ops : List Operation)
    (kept : ∀ other, .setRefreshInterval other ∉ ops) :
    ∃ b', (v.run ops).banks[bank]? = some b' ∧ b'.Dated interval (v.refreshLog bank log ops) := by
  -- On the operations; each starts where the one before has left the vault and the log.
  induction ops generalizing v b log with
  | nil => exact ⟨b, found, dated⟩
  | cons op ops ih =>
      have now : ∀ other, op ≠ .setRefreshInterval other :=
        fun other here => kept other (here ▸ List.mem_cons_self)
      have later : ∀ other, .setRefreshInterval other ∉ ops :=
        fun other here => kept other (List.mem_cons_of_mem _ here)
      have found' := perform_getElem? found op
      have dated' : (b.undergo v.autoPrecharge bank op).Dated interval
          (log.after b (b.undergo v.autoPrecharge bank op) op) :=
        dated.undergo (ready.ready bank b found) v.autoPrecharge now
      rcases ih (ready.perform op) found' dated' later with ⟨b', last, done⟩
      refine ⟨b', last, ?_⟩
      simpa only [refreshLog, found, found'] using done

/-- The vault serves the request after a refresh of its bank, which is counted. -/
def RefreshesFirst (v : Vault) (access : Access) (bank row : Nat) (time : Time) : Prop :=
  ∃ b refreshing b₁ latency b', v.banks[bank]? = some b ∧
    Bank.refresh time b = .ok refreshing b₁ ∧
    Bank.attend v.autoPrecharge access row time refreshing b₁ = .ok latency b' ∧
    request access bank row time v =
      .ok latency { v.withBank bank b' with requests := v.requests + 1 } ∧
    b'.activity.refreshes = b.activity.refreshes + 1

/-- The vault serves the request without a refresh. -/
def ServesAtOnce (v : Vault) (access : Access) (bank row : Nat) (time : Time) : Prop :=
  ∃ b latency b', v.banks[bank]? = some b ∧
    Bank.attend v.autoPrecharge access row time .zero b = .ok latency b' ∧
    request access bank row time v =
      .ok latency { v.withBank bank b' with requests := v.requests + 1 } ∧
    b'.activity.refreshes = b.activity.refreshes

/-- The date of the next refresh decides. -/
theorem request_cases {b : Bank} (found : v.banks[bank]? = some b) (ready : b.Ready rows)
    (present : row < rows) (access : Access) (time : Time) :
    (b.refreshDue time = true → v.RefreshesFirst access bank row time) ∧
      (b.refreshDue time = false → v.ServesAtOnce access bank row time) := by
  have succeeds : Succeeds (Bank.serve v.autoPrecharge access row time) b fun _ b' =>
      b'.Ready rows := b.serve_succeeds v.autoPrecharge access ready present
  rcases succeeds with ⟨latency, b', served, _⟩
  have request := request_of_serve found served
  rcases ready.serve_cases v.autoPrecharge access row time with
    ⟨due, refreshing, b₁, done, refreshed, attends, same⟩ | ⟨early, attends, same⟩
  · refine ⟨fun _ => ?_, fun early => absurd (due.symm.trans early) nofun⟩
    rw [served] at same
    exact ⟨b, refreshing, b₁, latency, b', found, done, attends.symm.trans served, request,
      same.refreshes.trans refreshed.counted⟩
  · refine ⟨fun due => absurd (due.symm.trans early) nofun, fun _ => ?_⟩
    rw [served] at same
    exact ⟨b, latency, b', found, attends.symm.trans served, request, same.refreshes⟩

theorem RefreshesFirst.counted {access : Access} (h : v.RefreshesFirst access bank row time) :
    ∃ n, (v.perform (.request access bank row time)).banks[bank]?.map (·.activity.refreshes) =
      some (n + 1) := by
  rcases h with ⟨b, _, _, latency, b', found, _, _, served, counted⟩
  have inside : bank < v.banks.size := (Array.getElem?_eq_some_iff.1 found).1
  refine ⟨b.activity.refreshes, ?_⟩
  rw [perform, served, ← counted]
  simp [final, withBank, inside]

/-- Wherever operations lead a vault that has been given a refresh interval when it was built, a
request refreshes its bank first if it comes one interval after the time where the log has the
interval begin, or later, and only then; for a bank that is marked as hot, half the interval.  The
interval begins at the end of the last refresh if the mark has not changed since then. -/
theorem run_refreshes (id : Nat) {vaultSize bankSize rowSize : Nat} (autoPrecharge : Bool)
    {speed : Speed} (on : interval ≠ .zero) (ops : List Operation)
    (kept : ∀ other, .setRefreshInterval other ∉ ops) (inside : bank < vaultSize / bankSize)
    (present : row < (Bank.ofSize bankSize rowSize speed).rowCount)
    (access : Access) (time : Time) :
    let start :=
      (ofSizes id vaultSize bankSize rowSize autoPrecharge speed).setRefreshInterval interval
    let v := start.run ops
    let log := start.refreshLog bank {} ops
    ∃ b, v.banks[bank]? = some b ∧
      let span := if b.hot then interval.half else interval
      (log.begun + span ≤ time → v.RefreshesFirst access bank row time) ∧
      (time < log.begun + span → v.ServesAtOnce access bank row time) ∧
      (log.begun ≤ log.ended →
        log.ended + interval ≤ time ∨ b.hot = true ∧ log.ended + interval.half ≤ time →
        v.RefreshesFirst access bank row time) := by
  intro start v log
  have positive : 0 < (Bank.ofSize bankSize rowSize speed).rowCount := Nat.zero_lt_of_lt present
  have ready : start.Ready (vaultSize / bankSize) (Bank.ofSize bankSize rowSize speed).rowCount :=
    (ofSizes_ready positive).mapBanks fun _ ready => ready.setRefreshInterval interval
  have first : start.banks[bank]? =
      some ((Bank.ofSize bankSize rowSize speed).setRefreshInterval interval) := by
    simp [start, setRefreshInterval, mapBanks, ofSizes, inside]
  have fresh : ((Bank.ofSize bankSize rowSize speed).setRefreshInterval interval).Dated interval
      {} := ⟨rfl, rfl⟩
  rcases run_dated ready first fresh ops kept with ⟨b, found, dated⟩
  have cases := request_cases found ((ready.run ops).ready bank b found) present access time
  have interval_eq : b.interval = if b.hot then interval.half else interval := by
    rw [Bank.interval, dated.refreshInterval]
  have due : b.refreshDue time = true ↔
      log.begun + (if b.hot then interval.half else interval) ≤ time := by
    rw [dated.refreshDue_iff on, interval_eq]
  refine ⟨b, found, fun reached => cases.1 (due.2 reached), fun early => cases.2 ?_,
    fun unchanged reached => cases.1 (due.2 ?_)⟩
  · exact Bool.eq_false_iff.2 fun isDue => Nat.not_le.2 early (due.1 isDue)
  · -- The interval in force is the base interval at most, and half of it for a hot bank.
    have from_end : log.begun + (if b.hot then interval.half else interval) ≤
        log.ended + (if b.hot then interval.half else interval) :=
      Time.add_le_add unchanged (Nat.le_refl _)
    refine Nat.le_trans from_end ?_
    rcases reached with reached | ⟨hot, reached⟩
    · refine Nat.le_trans (Time.add_le_add (Nat.le_refl _) ?_) reached
      split
      · exact interval.half_le
      · exact Nat.le_refl _
    · rwa [if_pos hot]

/-- The first request refreshes a hot bank, and the next refresh is half an interval after the end of
that one. -/
theorem run_refreshes_hot :
    let start := (ofSizes 0 1024 1024 256 false {}).setRefreshInterval ⟨1000000⟩
    let ops : List Operation := [.setHot 0 true, .request .read 0 1 ⟨600000⟩]
    (⟨1000000⟩ : Time) ≠ .zero ∧ (∀ other, .setRefreshInterval other ∉ ops) ∧
      0 < 1024 / 1024 ∧ 1 < (Bank.ofSize 1024 256 {}).rowCount ∧
      (start.refreshLog 0 {} ops).begun = ⟨614000⟩ ∧
      (start.run ops).RefreshesFirst .read 0 1 ⟨1114000⟩ ∧
      (start.run ops).ServesAtOnce .read 0 1 ⟨1113999⟩ := by
  intro start ops
  have on : (⟨1000000⟩ : Time) ≠ .zero := by decide
  have kept : ∀ other, Operation.setRefreshInterval other ∉ ops := by simp [ops]
  have inside : 0 < 1024 / 1024 := by decide
  have present : 1 < (Bank.ofSize 1024 256 {}).rowCount := by decide
  have begun : (start.refreshLog 0 {} ops).begun = ⟨614000⟩ := by decide +kernel
  have hot : (start.run ops).banks[0]?.map (·.hot) = some true := by decide +kernel
  have late := run_refreshes 0 false on ops kept inside present .read ⟨1114000⟩
  have early := run_refreshes 0 false on ops kept inside present .read ⟨1113999⟩
  simp only [show (ofSizes 0 1024 1024 256 false {}).setRefreshInterval ⟨1000000⟩ = start from rfl,
    begun] at late early
  -- The vault is known well enough by now.
  generalize start.run ops = v at hot late early
  rcases late with ⟨b, found, late, _, _⟩
  rcases early with ⟨b', found', _, early, _⟩
  have isHot : b.hot = true := by simpa [found] using hot
  have isHot' : b'.hot = true := by simpa [found'] using hot
  rw [isHot] at late
  rw [isHot'] at early
  exact ⟨on, kept, inside, present, begun, late (by decide), early (by decide)⟩

/-- A bank is read twice and gets hot.  The next read comes more than one interval after the start,
and still it is not the one to refresh the bank for the first time. -/
theorem hint_postpones :
    let start := (ofSizes 0 1024 1024 256 false {}).setRefreshInterval ⟨1000000⟩
    let ops : List Operation :=
      [.request .read 0 1 ⟨0⟩, .request .read 0 1 ⟨900000⟩, .setHot 0 true]
    (start.refreshLog 0 {} ops).ended + ⟨1000000⟩ ≤ ⟨1100000⟩ ∧
      ¬(start.run ops).RefreshesFirst .read 0 1 ⟨1100000⟩ := by
  intro start ops
  refine ⟨by decide +kernel, fun refreshes => ?_⟩
  -- After the request, no refresh has been counted.
  have none : ((start.run ops).perform (.request .read 0 1 ⟨1100000⟩)).banks[0]?.map
      (·.activity.refreshes) = some 0 := by decide +kernel
  rcases refreshes.counted with ⟨n, counted⟩
  rw [none] at counted
  cases counted

end Vault

end StackedCache
