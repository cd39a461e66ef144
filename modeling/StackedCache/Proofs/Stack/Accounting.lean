import Mathlib.Algebra.Order.Floor.Div
import StackedCache.Proofs.Stack.Accesses
import StackedCache.Proofs.Stack.Deadlines

/-!
# Time accounted for

A command that a bank accepts is filed under a heading, `Command.heading`, and its latency is added to
the time the bank has been busy.  So what a transfer takes apart from the link is the time that its
bank has been busy for it, and the bank has filed all of it: `transfer_accounts`.

Sums of times stop at the end of time.  No kind of command has taken longer than the bank was busy,
`Bank.Covered`, so a bank files its commands in full unless its busy time gets there.
-/

namespace StackedCache

/-! ## Commands -/

/-- Where a command is filed, if it is. -/
def Command.heading : Command → Nat
  | .act => 0
  | .pre | .prea => 1
  | .rd | .rda => 2
  | .wr | .wra => 3
  | .ref | .refsb => 4
  | .pde | .pdx | .sre | .srx => 5

/-- Columns that a command accesses in one direction. -/
def Command.columns (command : Command) : Access → Nat
  | .read => if command.isColumn && !command.isWrite then 1 else 0
  | .write => if command.isColumn && command.isWrite then 1 else 0

namespace Activity

variable {a : Activity} {command : Command} {latency busy : Time}

/-- The time filed, by heading. -/
def times (a : Activity) : List Time :=
  [a.activating, a.precharging, a.reading, a.writing, a.refreshing]

/-- All time filed, in picoseconds. -/
def time (a : Activity) : Nat := (a.times.map (·.ps)).sum

/-- Column accesses in one direction. -/
def columns (a : Activity) : Access → Nat
  | .read => a.reads
  | .write => a.writes

theorem columns_record (a : Activity) (command : Command) (latency : Time) (rowHit : Bool)
    (kind : Access) :
    (a.record command latency rowHit).columns kind = a.columns kind + command.columns kind := by
  cases kind <;> cases command <;> cases rowHit <;> rfl

theorem times_record (a : Activity) (command : Command) (latency : Time) (rowHit : Bool) :
    (a.record command latency rowHit).times = a.times.modify command.heading (· + latency) := by
  cases command <;> cases rowHit <;> rfl

/-- A command with a heading is filed there and nowhere else. -/
theorem exists_filed (headed : command.heading < 5) (a : Activity) (latency : Time)
    (rowHit : Bool) :
    ∃ before t after, a.times = before ++ t :: after ∧
      (a.record command latency rowHit).times = before ++ (t + latency) :: after := by
  rw [times_record]
  rcases List.exists_of_modify (· + latency) (l := a.times) headed with
    ⟨before, t, after, old, _, new⟩
  exact ⟨before, t, after, old, new⟩

theorem time_record (headed : command.heading < 5)
    (room : ∀ t ∈ a.times, t.ps + latency.ps ≤ Time.limit) (rowHit : Bool) :
    (a.record command latency rowHit).time = a.time + latency.ps := by
  rcases exists_filed headed a latency rowHit with ⟨before, t, after, old, new⟩
  have within : (t + latency).ps = t.ps + latency.ps :=
    Nat.min_eq_left (room t (old ▸ List.mem_append_right before List.mem_cons_self))
  simp only [time, old, new, List.map_append, List.map_cons, List.sum_append, List.sum_cons, within]
  omega

theorem times_record_le (headed : command.heading < 5) (covered : ∀ t ∈ a.times, t ≤ busy)
    (bounded : busy.ps ≤ Time.limit) (rowHit : Bool) :
    ∀ t ∈ (a.record command latency rowHit).times, t ≤ busy + latency := by
  rcases exists_filed headed a latency rowHit with ⟨before, t, after, old, new⟩
  rw [old, List.forall_mem_append, List.forall_mem_cons] at covered
  rw [new, List.forall_mem_append, List.forall_mem_cons]
  have longer : ∀ u : Time, u ≤ busy → u ≤ busy + latency := fun u le =>
    Nat.le_trans le (Nat.le_min.2 ⟨Nat.le_add_right _ _, bounded⟩)
  exact ⟨fun u mem => longer u (covered.1 u mem), Time.add_le_add covered.2.1 (Nat.le_refl _),
    fun u mem => longer u (covered.2.2 u mem)⟩

theorem times_empty_le (busy : Time) : ∀ t ∈ times {}, t ≤ busy := by
  intro t filed
  have zero : t = .zero := by simpa [times] using filed
  exact zero ▸ Nat.zero_le busy.ps

end Activity

/-! ## Banks -/

namespace Bank

variable {b b' b'' : Bank} {access : Access} {command : Command} {m n row : Nat}

/-- No kind of command has taken longer than the bank was busy. -/
structure Covered (b : Bank) : Prop where
  bounded : b.busy.ps ≤ Time.limit
  times : ∀ t ∈ b.activity.times, t ≤ b.busy

theorem Covered.accept (h : b.Covered) (headed : command.heading < 5) (row : Nat)
    (time latency : Time) : (b.accept command row time latency).Covered :=
  ⟨Nat.min_le_right _ _, Activity.times_record_le headed h.times h.bounded _⟩

theorem Covered.schedule (h : b.Covered) (time : Time) : (b.schedule time).Covered :=
  ⟨h.bounded, h.times⟩

/-- A permitted command has a heading, and takes no longer than time lasts. -/
theorem permit_bounded {latency : Time} (permitted : b.permit command row = .ok latency) :
    command.heading < 5 ∧ latency.ps ≤ Time.limit := by
  have legal := (permit_eq_ok_iff.1 permitted).2.2
  have headed : ∀ c ∈ [.act, .pre, .rd, .wr, .rda, .wra, .refsb], Command.heading c < 5 := by decide
  refine ⟨headed command (Speed.next_mem_of_latency? (Option.isSome_iff_exists.2 ⟨_, legal⟩)), ?_⟩
  rw [Speed.latency?, Option.map_eq_some_iff] at legal
  rcases legal with ⟨cycles, _, rfl⟩
  exact Nat.min_le_right _ _

theorem issue_preserves (command : Command) (row : Nat) (time : Time) (b : Bank) :
    Leads (Preserves Covered) (issue command row time) b := by
  intro h
  rw [issue_apply]
  cases permitted : b.permit command row with
  | error cause => exact h
  | ok latency => exact h.accept (permit_bounded permitted).1 row time latency

/-- Served or refused, a request leaves its bank covered. -/
theorem serve_preserves (autoPrecharge : Bool) (access : Access) (row : Nat) (time : Time)
    (b : Bank) : Leads (Preserves Covered) (serve autoPrecharge access row time) b := by
  have attends (refreshing : Time) (b : Bank) :
      Leads (Preserves Covered) (attend autoPrecharge access row time refreshing) b :=
    attend_leads (fun _ _ => issue_preserves _) autoPrecharge access row time refreshing b
  unfold Leads
  rw [serve_apply]
  split
  · have refreshes : Leads (Preserves Covered) (refresh time) b :=
      refresh_leads issue_preserves (fun _ time h => h.schedule time) time
    exact Leads.bind refreshes fun refreshing _ _ => attends refreshing _
  · exact attends .zero b

/-- From the one state to the other, the bank has been busy for a span of time, which it has filed,
and has accessed columns in one direction. -/
structure Spends (access : Access) (columns spent : Nat) (b b' : Bank) : Prop where
  covered : b'.Covered
  busy : b'.busy = Time.ofPs (b.busy.ps + spent)
  filed : b.busy.ps + spent ≤ Time.limit → b'.activity.time = b.activity.time + spent
  columns : ∀ kind, b'.activity.columns kind =
    b.activity.columns kind + if kind = access then columns else 0

theorem Spends.refl (h : b.Covered) (access : Access) : Spends access 0 0 b b := by
  refine ⟨h, ?_, fun _ => rfl, fun kind => ?_⟩
  · exact congrArg Time.mk (Nat.min_eq_left h.bounded).symm
  · rw [ite_self, Nat.add_zero]

theorem Spends.trans {spent spent' : Nat} (h : Spends access m spent b b')
    (h' : Spends access n spent' b' b'') : Spends access (m + n) (spent + spent') b b'' := by
  have busy : b'.busy.ps = min (b.busy.ps + spent) Time.limit := congrArg Time.ps h.busy
  refine ⟨h'.covered, ?_, fun within => ?_, fun kind => ?_⟩
  · have capped : min (min (b.busy.ps + spent) Time.limit + spent') Time.limit =
        min (b.busy.ps + (spent + spent')) Time.limit := by omega
    rw [h'.busy, busy]
    exact congrArg Time.mk capped
  · -- What fits in all, fits first in part.
    have first := h.filed (by omega)
    have second := h'.filed (by omega)
    rw [second, first, Nat.add_assoc]
  · rw [h'.columns, h.columns]
    split <;> omega

/-- A step has taken the time that the bank has spent. -/
def Takes (access : Access) (columns : Nat) (b : Bank) (latency : Time) (b' : Bank) : Prop :=
  ∃ spent, latency = Time.ofPs spent ∧ Spends access columns spent b b'

theorem Takes.covered {latency : Time} (h : b.Takes access n latency b') : b'.Covered := by
  rcases h with ⟨spent, _, spends⟩
  exact spends.covered

theorem Takes.refl (h : b.Covered) (access : Access) : b.Takes access 0 .zero b :=
  ⟨0, rfl, .refl h access⟩

theorem Takes.trans {latency latency' : Time} (h : b.Takes access m latency b')
    (h' : b'.Takes access n latency' b'') : b.Takes access (m + n) (latency + latency') b'' := by
  rcases h with ⟨spent, rfl, spends⟩
  rcases h' with ⟨spent', rfl, spends'⟩
  exact ⟨spent + spent', Time.ofPs_add spent spent', spends.trans spends'⟩

/-- An accepted command takes its latency. -/
theorem issue_takes (h : b.Covered) (command : Command)
    (columns : ∀ kind, command.columns kind = if kind = access then n else 0) (row : Nat)
    (time : Time) :
    Yields (issue command row time) b fun latency b' => b.Takes access n latency b' := by
  intro latency b' done
  rw [issue_apply] at done
  cases permitted : b.permit command row with
  | error cause =>
      rw [permitted] at done
      cases done
  | ok latency =>
      rw [permitted] at done
      cases done
      rcases permit_bounded permitted with ⟨headed, bounded⟩
      refine ⟨latency.ps, congrArg Time.mk (Nat.min_eq_left bounded).symm,
        h.accept headed row time latency, rfl, fun within => ?_, fun kind => ?_⟩
      · refine Activity.time_record headed (fun t filed => ?_) _
        exact Nat.le_trans (Nat.add_le_add_right (h.times t filed) _) within
      · rw [← columns]
        exact Activity.columns_record ..

/-- Most commands access no column. -/
theorem issue_takes_none (h : b.Covered) {command : Command} (noColumn : command.isColumn = false)
    (access : Access) (row : Nat) (time : Time) :
    Yields (issue command row time) b fun latency b' => b.Takes access 0 latency b' := by
  refine issue_takes h command (fun kind => ?_) row time
  cases kind <;> simp [Command.columns, noColumn]

theorem issue_takes_one (h : b.Covered) (access : Access) (row : Nat) (time : Time) :
    Yields (issue (columnCommand access) row time) b fun latency b' =>
      b.Takes access 1 latency b' := by
  refine issue_takes h _ (fun kind => ?_) row time
  cases access <;> cases kind <;> rfl

theorem refresh_takes (h : b.Covered) (access : Access) (time : Time) :
    Yields (refresh time) b fun latency b' => b.Takes access 0 latency b' := by
  have closing : Yields (closeRow time) b fun latency b' => b.Takes access 0 latency b' := by
    refine .get_bind ?_
    cases b.openRow with
    | none => exact .pure (.refl h access)
    | some row => exact issue_takes_none h rfl access row time
  refine closing.bind fun closing b₁ first => ?_
  refine (issue_takes_none first.covered rfl access 0 _).bind fun refreshing b₂ second => ?_
  rcases first.trans second with ⟨spent, eq, spends⟩
  -- The new date is no command.
  refine Yields.bind (P := fun _ b' => Spends access 0 spent b b') (.modify ?_) fun _ _ spends =>
    .pure ⟨spent, eq, spends⟩
  exact ⟨spends.covered.schedule _, spends.busy, spends.filed, spends.columns⟩

theorem bring_takes (h : b.Covered) (access : Access) (row : Nat) (time : Time) :
    Yields (bring row time) b fun latency b' => b.Takes access 0 latency b' := by
  refine .get_bind ?_
  cases b.openRow with
  | none => exact issue_takes_none h rfl access row time
  | some current =>
      refine .ite (fun _ => .pure (.refl h access)) fun _ => ?_
      refine (issue_takes_none h rfl access current time).bind fun closing b₁ first => ?_
      refine (issue_takes_none first.covered rfl access row _).bind fun opening b₂ second => ?_
      exact .pure (first.trans second)

/-- A request takes what its commands take, and accesses one column. -/
theorem serve_takes (h : b.Covered) (autoPrecharge : Bool) (access : Access) (row : Nat)
    (time : Time) :
    Yields (serve autoPrecharge access row time) b fun latency b' =>
      b.Takes access 1 latency b' := by
  refine .get_bind ?_
  have refreshed : Yields (if b.refreshDue time then refresh time else Pure.pure .zero) b
      fun latency b' => b.Takes access 0 latency b' :=
    .ite (fun _ => refresh_takes h access time) fun _ => .pure (.refl h access)
  refine Yields.ite_bind refreshed fun refreshing b₁ first => ?_
  refine (bring_takes first.covered access row _).bind fun opening b₂ second => ?_
  refine (issue_takes_one second.covered access row _).bind fun column b₃ third => ?_
  have served : b.Takes access 1 (refreshing + opening + column) b₃ :=
    (first.trans second).trans third
  cases autoPrecharge with
  | false => exact .pure served
  | true =>
      refine (issue_takes_none third.covered rfl access row _).bind fun closing b₄ fourth => ?_
      exact .pure (served.trans fourth)

end Bank

/-! ## Vaults -/

namespace Vault

variable {v : Vault} {b : Bank} {banks rows bank : Nat}

theorem onBank_of_found {α : Type} {step : BankStep α} {P : α → Bank → Prop}
    (found : v.banks[bank]? = some b) (h : Yields step b P) :
    Yields (onBank bank step) v fun a v' => ∃ b', v' = v.withBank bank b' ∧ P a b' := by
  intro a v' done
  simp only [onBank, found] at done
  cases run : step b with
  | ok a₁ b₁ =>
      simp only [run] at done
      cases done
      exact ⟨b₁, rfl, h _ _ run⟩
  | error cause b₁ => simp [run] at done

theorem request_takes (found : v.banks[bank]? = some b) (covered : b.Covered) (access : Access)
    (row : Nat) (time : Time) :
    Yields (request access bank row time) v fun latency v' =>
      ∃ b', v'.banks[bank]? = some b' ∧ b.Takes access 1 latency b' := by
  refine .get_bind ?_
  refine (onBank_of_found found (b.serve_takes covered v.autoPrecharge access row time)).bind ?_
  rintro latency _ ⟨b', rfl, takes⟩
  refine Yields.bind (P := fun _ v' => v'.banks[bank]? = some b') (.modify ?_) fun _ _ here =>
    .pure ⟨b', here, takes⟩
  exact getElem?_setIfInBounds_of_some found b'

/-- The spans of the requests add up, whenever the first one comes. -/
theorem requestMany_takes (found : v.banks[bank]? = some b) (covered : b.Covered) (access : Access)
    (row : Nat) (time : Time) (n elapsed : Nat) :
    Yields (requestMany access bank row time n (Time.ofPs elapsed)) v fun total v' =>
      ∃ b' spent, v'.banks[bank]? = some b' ∧ total = Time.ofPs (elapsed + spent) ∧
        Bank.Spends access n spent b b' := by
  induction n generalizing v b elapsed with
  | zero => exact .pure ⟨b, 0, found, rfl, .refl covered access⟩
  | succ n ih =>
      refine (request_takes found covered access row _).bind ?_
      rintro _ v₁ ⟨b₁, found₁, spent₁, rfl, first⟩
      rw [Time.ofPs_add]
      refine (ih found₁ first.covered (elapsed + spent₁)).mono ?_
      rintro _ v₂ ⟨b₂, spent₂, found₂, rfl, rest⟩
      exact ⟨b₂, spent₁ + spent₂, found₂, by rw [Nat.add_assoc],
        Nat.add_comm 1 n ▸ first.trans rest⟩

/-- All banks wait for a request and are covered. -/
structure Sound (banks rows : Nat) (v : Vault) : Prop where
  ready : v.Ready banks rows
  covered : ∀ (bank : Nat) (b : Bank), v.banks[bank]? = some b → b.Covered

theorem onBank_covered {α : Type} {step : BankStep α}
    (preserves : ∀ b, Leads (Preserves Bank.Covered) step b) (bank : Nat)
    (h : ∀ (i : Nat) (b : Bank), v.banks[i]? = some b → b.Covered) :
    ∀ (i : Nat) (b : Bank), (final (onBank bank step v)).banks[i]? = some b → b.Covered := by
  unfold onBank
  cases found : v.banks[bank]? with
  | none => exact h
  | some b =>
      have covered : (final (step b)).Covered := preserves b (h bank b found)
      cases run : step b with
      | ok a b' =>
          rw [run] at covered
          simp only [run]
          exact forall_setIfInBounds h covered
      | error cause b' =>
          rw [run] at covered
          simp only [run]
          exact forall_setIfInBounds h covered

/-- Served or refused, a request leaves all banks waiting and covered. -/
theorem request_preserves (access : Access) (bank row : Nat) (time : Time) (v : Vault) :
    Leads (Preserves (Sound banks rows)) (request access bank row time) v := by
  intro h
  refine ⟨h.ready.request access bank row time, ?_⟩
  rw [request_banks]
  exact onBank_covered (Bank.serve_preserves v.autoPrecharge access row time) bank h.covered

theorem setHot_preserves (bank : Nat) (hot : Bool) (v : Vault) :
    Leads (Preserves (Sound banks rows)) (onBank bank (modify (·.setHot hot))) v := by
  intro h
  refine ⟨h.ready.setHot bank hot, onBank_covered (fun b => .modify fun h => ?_) bank h.covered⟩
  unfold Bank.setHot
  split
  · exact h
  · exact ⟨h.bounded, h.times⟩

theorem requestMany_preserves (access : Access) (bank row : Nat) (time : Time) (n : Nat)
    (elapsed : Time) (v : Vault) :
    Leads (Preserves (Sound banks rows)) (requestMany access bank row time n elapsed) v := by
  induction n generalizing elapsed v with
  | zero => exact .pure elapsed
  | succ n ih => exact .bind (request_preserves access bank row _ v) fun _ _ _ => ih _ _

end Vault

/-! ## Stacks -/

namespace Stack

variable {s : StackSettings} {stack : Stack} {l : Location}

/-- An operation of a stack. -/
inductive Operation where
  | transfer (access : Access) (bytes : Nat) (l : Location) (time : Time)
  | setHot (p : BankPlace) (hot : Bool)
  | resetActivity

/-- Performs an operation.  What a refused one has done stays done. -/
def perform (stack : Stack) : Operation → Stack
  | .transfer access bytes l time => final (transfer access bytes l time stack)
  | .setHot p hot => final (setHot p hot stack)
  | .resetActivity => stack.resetActivity

/-- Performs operations in order. -/
def run (stack : Stack) (ops : List Operation) : Stack := ops.foldl perform stack

/-- The stack is built as its settings say, and its vaults are sound. -/
structure Sound (s : StackSettings) (stack : Stack) : Prop where
  size : stack.vaults.size = s.vaults.toNat
  requestBytes : stack.requestBytes = s.requestBytes.toNat
  bandwidth : stack.bandwidth = s.bandwidth
  vaults : ∀ (i : Nat) (v : Vault), stack.vaults[i]? = some v →
    v.Sound (s.vaultSize.toNat / s.bankSize.toNat) s.rowsPerBank

theorem ofSettings_sound (positive : 0 < s.rowsPerBank) : (ofSettings s).Sound s := by
  refine ⟨by simp [ofSettings], rfl, rfl, fun i v found => ?_⟩
  simp only [ofSettings, Array.getElem?_map, Option.map_eq_some_iff] at found
  rcases found with ⟨id, _, rfl⟩
  have built : (Vault.ofSizes id s.vaultSize.toNat s.bankSize.toNat s.rowSize.toNat s.autoPrecharge
      s.speed).Sound (s.vaultSize.toNat / s.bankSize.toNat) s.rowsPerBank := by
    refine ⟨Vault.ofSizes_ready positive, fun bank b found => ?_⟩
    simp only [Vault.ofSizes, Array.getElem?_replicate] at found
    split at found
    · cases found
      exact ⟨Nat.zero_le _, Activity.times_empty_le .zero⟩
    · cases found
  cases s.refresh with
  | false => exact built
  | true =>
      refine ⟨built.ready.mapBanks fun _ ready => ready.setRefreshInterval _, ?_⟩
      exact forall_map built.covered fun _ covered => ⟨covered.bounded, covered.times⟩

theorem onVault_preserves {α : Type} {step : VaultStep α}
    (preserves : ∀ v, Leads (Preserves (Vault.Sound (s.vaultSize.toNat / s.bankSize.toNat)
      s.rowsPerBank)) step v) (vault : Nat) (stack : Stack) :
    Leads (Preserves (Sound s)) (onVault vault step) stack := by
  intro h
  unfold onVault
  cases found : stack.vaults[vault]? with
  | none => exact h
  | some v =>
      have sound := preserves v (h.vaults vault v found)
      have size (v' : Vault) : (stack.withVault vault v').vaults.size = s.vaults.toNat :=
        (Array.size_setIfInBounds ..).trans h.size
      cases run : step v with
      | ok a v' =>
          rw [run] at sound
          simp only [run]
          exact ⟨size v', h.requestBytes, h.bandwidth, forall_setIfInBounds h.vaults sound⟩
      | error cause v' =>
          rw [run] at sound
          simp only [run]
          exact ⟨size v', h.requestBytes, h.bandwidth, forall_setIfInBounds h.vaults sound⟩

theorem Sound.perform (h : stack.Sound s) (op : Operation) : (stack.perform op).Sound s := by
  cases op with
  | transfer access bytes l time =>
      have served (n : Nat) (stack : Stack) : Leads (Preserves (Sound s))
          (onVault l.vault (Vault.requestMany access l.bank l.row time n .zero)) stack :=
        onVault_preserves (Vault.requestMany_preserves access l.bank l.row time n .zero) l.vault
          stack
      have leads : Leads (Preserves (Sound s)) (transfer access bytes l time) stack :=
        .bind (.pure stack) fun _ stack _ => .bind (served _ stack) fun _ _ _ => .pure _
      exact leads h
  | setHot p hot => exact onVault_preserves (Vault.setHot_preserves p.bank hot) p.vault stack h
  | resetActivity =>
      refine ⟨Array.size_map.trans h.size, h.requestBytes, h.bandwidth, ?_⟩
      refine forall_map h.vaults fun v sound => ⟨sound.ready.resetActivity, ?_⟩
      exact forall_map sound.covered fun b covered =>
        ⟨covered.bounded, Activity.times_empty_le b.busy⟩

theorem Sound.run (h : stack.Sound s) (ops : List Operation) : (stack.run ops).Sound s := by
  induction ops generalizing stack with
  | nil => exact h
  | cons op ops ih => exact ih (h.perform op)

theorem requestsFor_eq (stack : Stack) (bytes : Nat) :
    stack.requestsFor bytes = max 1 (bytes ⌈/⌉ stack.requestBytes) := by
  rw [requestsFor, Nat.ceilDiv_eq_add_pred_div]
  cases stack.requestBytes with
  | zero => rw [Nat.div_zero, Nat.div_zero]
  | succ n => rfl

/-- A transfer to or from a row of a sound vault takes what the bank of the row takes for it, and
then the time on the link. -/
theorem transfer_takes {v : Vault} {banks rows : Nat} (found : stack.vaults[l.vault]? = some v)
    (sound : v.Sound banks rows) (bank_lt : l.bank < banks) (row_lt : l.row < rows)
    (access : Access) (bytes : Nat) (time : Time) :
    Succeeds (transfer access bytes l time) stack fun t stack' =>
      t.requests = stack.requestsFor bytes ∧
        ∃ v' b b' spent, stack'.vaults[l.vault]? = some v' ∧ v'.requests = v.requests + t.requests ∧
          v.banks[l.bank]? = some b ∧ v'.banks[l.bank]? = some b' ∧
          t.latency = Time.ofPs (spent + (stack.bandwidth.transferTime bytes).ps) ∧
          Bank.Spends access t.requests spent b b' := by
  rcases sound.ready.exists_bank bank_lt with ⟨b, foundBank, _⟩
  have succeeds : Succeeds (Vault.requestMany access l.bank l.row time (stack.requestsFor bytes)
      (Time.ofPs 0)) v fun _ v' => v'.Ready banks rows :=
    Vault.requestMany_succeeds access bank_lt row_lt _ _ sound.ready
  rcases succeeds with ⟨latency, v', run, _⟩
  have counted := Vault.requestMany_serves access l.bank l.row time _ _ v latency v' run
  rcases Vault.requestMany_takes foundBank (sound.covered l.bank b foundBank) access l.row time _ 0
    latency v' run with ⟨b', spent, foundBank', rfl, spends⟩
  have served : onVault l.vault (Vault.requestMany access l.bank l.row time
      (stack.requestsFor bytes) (Time.ofPs 0)) stack =
        .ok (Time.ofPs (0 + spent)) (stack.withVault l.vault v') := by
    simp only [onVault, found, run]
  have done : transfer access bytes l time stack =
      .ok ⟨Time.ofPs (0 + spent) + stack.bandwidth.transferTime bytes, stack.requestsFor bytes⟩
        (stack.withVault l.vault v') := bind_of_ok served
  refine ⟨_, _, done, rfl, v', b, b', spent, ?_, counted.requests, foundBank, foundBank', ?_,
    spends⟩
  · exact getElem?_setIfInBounds_of_some found v'
  · have capped : min (min (0 + spent) Time.limit + (stack.bandwidth.transferTime bytes).ps)
        Time.limit = min (spent + (stack.bandwidth.transferTime bytes).ps) Time.limit := by omega
    exact congrArg Time.mk capped

theorem bank?_of_found {v : Vault} {p : BankPlace} (found : stack.vaults[p.vault]? = some v) :
    stack.bank? p = v.banks[p.bank]? := by
  unfold bank? vault?
  rw [found]
  rfl

/-- Wherever operations lead a stack, a transfer to or from a row that it has is served.  It takes
the requests that its bytes need, at least one.  The time it takes apart from the link is added once
to the busy time of the bank of its row, and once to what this bank has filed, as long as the busy
time does not reach the end of time.  The bank and its vault count the requests, the bank by their
direction, and every other bank of the stack is as before. -/
theorem transfer_accounts (s : StackSettings) (ops : List Operation) (access : Access) (bytes : Nat)
    (l : Location) (time : Time) (vault_lt : l.vault < s.vaults.toNat)
    (bank_lt : l.bank < s.vaultSize.toNat / s.bankSize.toNat) (row_lt : l.row < s.rowsPerBank) :
    let stack := (ofSettings s).run ops
    ∃ t stack' v v' b b', transfer access bytes l time stack = .ok t stack' ∧
      t.requests = max 1 (bytes ⌈/⌉ s.requestBytes.toNat) ∧
      stack.vault? l.vault = some v ∧ stack'.vault? l.vault = some v' ∧
      v'.requests = v.requests + t.requests ∧
      stack.bank? l.place = some b ∧ stack'.bank? l.place = some b' ∧
      (∀ kind, b'.activity.columns kind =
        b.activity.columns kind + if kind = access then t.requests else 0) ∧
      (∃ spent, t.latency = Time.ofPs (spent + (s.bandwidth.transferTime bytes).ps) ∧
        b'.busy = Time.ofPs (b.busy.ps + spent) ∧
        (b.busy.ps + spent ≤ Time.limit → b'.activity.time = b.activity.time + spent)) ∧
      ∀ q, q ≠ l.place → stack'.bank? q = stack.bank? q := by
  intro stack
  have positive : 0 < s.rowsPerBank := Nat.zero_lt_of_lt row_lt
  have sound : stack.Sound s := (ofSettings_sound positive).run ops
  have held : ∃ v, stack.vaults[l.vault]? = some v :=
    ⟨_, Array.getElem?_eq_getElem (sound.size ▸ vault_lt)⟩
  rcases held with ⟨v, found⟩
  rcases transfer_takes found (sound.vaults l.vault v found) bank_lt row_lt access bytes time with
    ⟨t, stack', done, requests, v', b, b', spent, found', counted, foundBank, foundBank', latency,
      spends⟩
  have same : stack.SameBut l.place stack' := by
    have leads := transfer_sameBut access bytes l time (s := stack)
    rw [Leads, done] at leads
    exact leads
  refine ⟨t, stack', v, v', b, b', done, ?_, found, found', counted, ?_, ?_, spends.columns,
    ⟨spent, ?_, spends.busy, spends.filed⟩, same⟩
  · rw [requests, requestsFor_eq, sound.requestBytes]
  · exact (bank?_of_found found).trans foundBank
  · exact (bank?_of_found found').trans foundBank'
  · rw [← sound.bandwidth]
    exact latency

/-- A bank that has been written to gets hot and is read in three requests, the first of which comes
when a refresh is due. -/
theorem transfer_accounts_refreshed :
    let s : StackSettings :=
      { vaults := 1, vaultSize := 2048, bankSize := 1024, rowSize := 256, autoPrecharge := true,
        refresh := true }
    let ops : List Operation :=
      [.transfer .write 100 ⟨0, 0, 1⟩ ⟨0⟩, .setHot ⟨0, 0⟩ true, .transfer .read 1 ⟨0, 9, 0⟩ ⟨0⟩]
    let l : Location := ⟨0, 0, 2⟩
    l.vault < s.vaults.toNat ∧ l.bank < s.vaultSize.toNat / s.bankSize.toNat ∧
      l.row < s.rowsPerBank ∧
      ∃ t stack' b' spent, transfer .read 130 l ⟨5000000⟩ ((ofSettings s).run ops) = .ok t stack' ∧
        t.requests = 3 ∧ t.latency = Time.ofPs (spent + (s.bandwidth.transferTime 130).ps) ∧
        stack'.bank? l.place = some b' ∧ b'.busy = Time.ofPs (108000 + spent) ∧
        (108000 + spent ≤ Time.limit → b'.activity.time = 108000 + spent) ∧
        b'.activity.reads = 3 ∧ b'.activity.writes = 2 := by
  intro s ops l
  have vault_lt : l.vault < s.vaults.toNat := by decide
  have bank_lt : l.bank < s.vaultSize.toNat / s.bankSize.toNat := by decide
  have row_lt : l.row < s.rowsPerBank := by decide
  have before : (((ofSettings s).run ops).bank? l.place).map (fun b =>
      (b.busy, b.activity.time, b.activity.reads, b.activity.writes)) =
        some (⟨108000⟩, 108000, 0, 2) := by decide +kernel
  rcases transfer_accounts s ops .read 130 l ⟨5000000⟩ vault_lt bank_lt row_lt with
    ⟨t, stack', v, v', b, b', done, requests, _, _, _, found, found', columns,
      ⟨spent, latency, busy, filed⟩, _⟩
  simp only [found, Option.map_some, Option.some.injEq, Prod.mk.injEq] at before
  rcases before with ⟨busy₀, time₀, reads₀, writes₀⟩
  have three : t.requests = 3 := by
    rw [requests, Nat.ceilDiv_eq_add_pred_div]
    decide
  rw [busy₀] at busy filed
  rw [time₀] at filed
  have reads : b'.activity.reads = b.activity.reads + t.requests := columns .read
  have writes : b'.activity.writes = b.activity.writes + 0 := columns .write
  exact ⟨vault_lt, bank_lt, row_lt, t, stack', b', spent, done, three, latency, found', busy, filed,
    by omega, by omega⟩

end Stack

end StackedCache
