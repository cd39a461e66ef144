import StackedCache.Proofs.Step
import StackedCache.Stack.Basic

/-!
# Stacks that never refuse

Between requests a bank is closed after a precharge or refresh, or it has an open row after an
activation or column access.  From there every request for a row of the bank is served, with the
refresh that may be due before it, and leads back there.  So a stack of such banks serves every
transfer to a row it has.
-/

namespace StackedCache

/-! ## Arrays -/

section Arrays

variable {α : Type} {xs : Array α} {p : α → Prop}

/-- An element is found where another one was before. -/
theorem getElem?_setIfInBounds_of_some {i : Nat} {x : α} (found : xs[i]? = some x) (y : α) :
    (xs.setIfInBounds i y)[i]? = some y := by
  rw [Array.getElem?_setIfInBounds_self, if_pos (Array.getElem?_eq_some_iff.1 found).1]

/-- What holds of an element may depend on where it stands. -/
theorem forall_setIfInBounds_of_ne {p : Nat → α → Prop} {j : Nat} {y : α}
    (others : ∀ (i : Nat) (x : α), i ≠ j → xs[i]? = some x → p i x) (hy : p j y) (i : Nat) (x : α)
    (hx : (xs.setIfInBounds j y)[i]? = some x) : p i x := by
  rw [Array.getElem?_setIfInBounds] at hx
  split at hx
  · rename_i here
    split at hx
    · cases hx
      exact here ▸ hy
    · cases hx
  · rename_i apart
    exact others i x (Ne.symm apart) hx

theorem forall_setIfInBounds (h : ∀ (i : Nat) (x : α), xs[i]? = some x → p x) {j : Nat} {y : α}
    (hy : p y) (i : Nat) (x : α) (hx : (xs.setIfInBounds j y)[i]? = some x) : p x :=
  forall_setIfInBounds_of_ne (p := fun _ => p) (fun i x _ => h i x) hy i x hx

theorem forall_map (h : ∀ (i : Nat) (x : α), xs[i]? = some x → p x) {f : α → α}
    (hf : ∀ x, p x → p (f x)) (i : Nat) (x : α) (hx : (xs.map f)[i]? = some x) : p x := by
  rw [Array.getElem?_map, Option.map_eq_some_iff] at hx
  rcases hx with ⟨old, hold, rfl⟩
  exact hf old (h i old hold)

end Arrays

/-! ## Commands that may follow -/

namespace Speed

variable {s : Speed} {before : Command}

theorem refsb_after_iff :
    (s.latency? before .refsb).isSome = true ↔ before = .pre ∨ before = .refsb := by
  cases before <;> simp [latency?, transitionCycles?]

theorem pre_after_iff :
    (s.latency? before .pre).isSome = true ↔ before = .act ∨ before = .rd ∨ before = .wr := by
  cases before <;> simp [latency?, transitionCycles?]

end Speed

/-! ## Banks -/

namespace Bank

variable {b b' : Bank} {command : Command} {rows row : Nat} {time latency : Time}

/-- No row is open, and one may be opened. -/
def Closed (b : Bank) : Prop := b.openRow = none ∧ (b.last = .pre ∨ b.last = .refsb)

/-- A row is open, and it may be accessed or closed. -/
def Opened (b : Bank) (row : Nat) : Prop :=
  b.openRow = some row ∧ row < b.rowCount ∧ (b.last = .act ∨ b.last = .rd ∨ b.last = .wr)

/-- The bank has this many rows, at least one, and waits for a request. -/
structure Ready (b : Bank) (rows : Nat) : Prop where
  rowCount : b.rowCount = rows
  positive : 0 < rows
  waiting : b.Closed ∨ ∃ row, b.Opened row

theorem ofSize_ready {size rowSize : Nat} {speed : Speed}
    (h : 0 < (ofSize size rowSize speed).rowCount) :
    (ofSize size rowSize speed).Ready (ofSize size rowSize speed).rowCount :=
  ⟨rfl, h, .inl ⟨rfl, .inl rfl⟩⟩

theorem Ready.setRefreshInterval (h : b.Ready rows) (interval : Time) :
    (b.setRefreshInterval interval).Ready rows :=
  ⟨h.rowCount, h.positive, h.waiting⟩

/-- A bank waits for a request whether it is marked as hot or not. -/
theorem Ready.setHot (h : b.Ready rows) (hot : Bool) : (b.setHot hot).Ready rows := by
  unfold Bank.setHot
  split
  · exact h
  · exact ⟨h.rowCount, h.positive, h.waiting⟩

theorem Ready.resetActivity (h : b.Ready rows) : b.resetActivity.Ready rows :=
  ⟨h.rowCount, h.positive, h.waiting⟩

/-- A column is accessed as if right after the activation of its row. -/
theorem permit_eq_ok_iff :
    b.permit command row = .ok latency ↔
      row < b.rowCount ∧ (command.isColumn = true → b.openRow = some row) ∧
        b.speed.latency? (if command.isColumn then .act else b.last) command = some latency := by
  unfold permit
  by_cases beyond : b.rowCount ≤ row
  · simp [beyond, Nat.not_lt.2 beyond]
  · by_cases column : command.isColumn = true ∧ b.openRow ≠ some row
    · simp [beyond, column]
    · have opened : command.isColumn = true → b.openRow = some row :=
        fun h => Decidable.byContradiction fun other => column ⟨h, other⟩
      have passes : ¬((command.isColumn && decide (b.openRow ≠ some row)) = true) := by
        simpa using opened
      rw [if_neg beyond, if_neg passes]
      cases b.speed.latency? (if command.isColumn then .act else b.last) command with
      | none => simp
      | some legal => simpa [Nat.not_le.1 beyond] using fun _ => opened

/-- A command is permitted if its row exists, is open for a column, and the command may follow. -/
theorem permit_succeeds (row_lt : row < b.rowCount)
    (column : command.isColumn = true → b.openRow = some row)
    (legal : (b.speed.latency? (if command.isColumn then .act else b.last) command).isSome = true) :
    ∃ latency, b.permit command row = .ok latency := by
  rcases Option.isSome_iff_exists.1 legal with ⟨latency, found⟩
  exact ⟨latency, permit_eq_ok_iff.2 ⟨row_lt, column, found⟩⟩

/-- Such a command is accepted. -/
theorem issue_succeeds (command : Command) (row_lt : row < b.rowCount)
    (column : command.isColumn = true → b.openRow = some row)
    (legal : (b.speed.latency? (if command.isColumn then .act else b.last) command).isSome = true) :
    Succeeds (issue command row time) b fun _ b' => ∃ t l, b' = b.accept command row t l := by
  rcases permit_succeeds row_lt column legal with ⟨latency, permitted⟩
  exact ⟨latency, _, by rw [issue_apply, permitted], _, _, rfl⟩

/-- A precharge closes an open row. -/
theorem issue_pre_succeeds (opened : b.Opened row) :
    Succeeds (issue .pre row time) b fun _ b' => b'.rowCount = b.rowCount ∧ b'.Closed := by
  rcases opened with ⟨_, row_lt, last⟩
  have legal : (b.speed.latency? b.last .pre).isSome = true := Speed.pre_after_iff.2 last
  refine (issue_succeeds .pre row_lt (fun h => by cases h) legal).mono ?_
  rintro _ b' ⟨t, l, rfl⟩
  exact ⟨rfl, rfl, .inl rfl⟩

/-- An activation opens a row of a closed bank. -/
theorem issue_act_succeeds (closed : b.Closed) (row_lt : row < b.rowCount) :
    Succeeds (issue .act row time) b fun _ b' => b'.rowCount = b.rowCount ∧ b'.Opened row := by
  rcases closed with ⟨_, last⟩
  have legal : (b.speed.latency? b.last .act).isSome = true := by
    rcases last with h | h <;> rw [h] <;> rfl
  refine (issue_succeeds .act row_lt (fun h => by cases h) legal).mono ?_
  rintro _ b' ⟨t, l, rfl⟩
  exact ⟨rfl, rfl, row_lt, .inl rfl⟩

/-- A closed bank can be refreshed and stays closed. -/
theorem issue_refsb_succeeds (closed : b.Closed) (positive : 0 < b.rowCount) :
    Succeeds (issue .refsb 0 time) b fun _ b' => b'.rowCount = b.rowCount ∧ b'.Closed := by
  rcases closed with ⟨none, last⟩
  have legal : (b.speed.latency? b.last .refsb).isSome = true := Speed.refsb_after_iff.2 last
  refine (issue_succeeds .refsb positive (fun h => by cases h) legal).mono ?_
  rintro _ b' ⟨t, l, rfl⟩
  exact ⟨rfl, none, .inr rfl⟩

/-- An open row can be accessed and stays open. -/
theorem issue_column_succeeds (access : Access) (opened : b.Opened row) :
    Succeeds (issue (columnCommand access) row time) b fun _ b' =>
      b'.rowCount = b.rowCount ∧ b'.Opened row := by
  rcases opened with ⟨isOpen, row_lt, _⟩
  have legal : (b.speed.latency? (if (columnCommand access).isColumn then .act else b.last)
      (columnCommand access)).isSome = true := by
    cases access <;> rfl
  refine (issue_succeeds (columnCommand access) row_lt (fun _ => isOpen) legal).mono ?_
  rintro _ b' ⟨t, l, rfl⟩
  cases access with
  | read => exact ⟨rfl, isOpen, row_lt, .inr (.inl rfl)⟩
  | write => exact ⟨rfl, isOpen, row_lt, .inr (.inr rfl)⟩

theorem closeRow_succeeds (h : b.Ready rows) :
    Succeeds (closeRow time) b fun _ b' => b'.Ready rows ∧ b'.Closed := by
  refine .get_bind ?_
  rcases h.waiting with closed | ⟨row, opened⟩
  · rw [closed.1]
    exact .pure ⟨h, closed⟩
  · rw [opened.1]
    refine (issue_pre_succeeds opened).mono ?_
    rintro _ b' ⟨same, closed⟩
    exact ⟨⟨same.trans h.rowCount, h.positive, .inl closed⟩, closed⟩

/-- A refresh closes the open row and leaves the bank closed. -/
theorem refresh_succeeds (h : b.Ready rows) :
    Succeeds (refresh time) b fun _ b' => b'.Ready rows := by
  refine (closeRow_succeeds h).bind ?_
  rintro _ b₁ ⟨ready, closed⟩
  refine (issue_refsb_succeeds closed (ready.rowCount ▸ h.positive)).bind ?_
  rintro _ b₂ ⟨same, closed⟩
  have count : b₂.rowCount = rows := same.trans ready.rowCount
  -- What is left is the date of the next refresh, which no command asks for.
  refine Succeeds.bind (P := fun _ b' => b'.Ready rows) (.modify ?_) fun _ _ ready => .pure ready
  exact ⟨count, h.positive, .inl closed⟩

theorem bring_succeeds (h : b.Ready rows) (row_lt : row < rows) :
    Succeeds (bring row time) b fun _ b' => b'.rowCount = rows ∧ b'.Opened row := by
  refine .get_bind ?_
  -- A closed bank is activated, the right row is left open, another one is closed first.
  rcases h.waiting with closed | ⟨current, opened⟩
  · rw [closed.1]
    refine (issue_act_succeeds closed (h.rowCount ▸ row_lt)).mono ?_
    rintro _ b' ⟨same, opened⟩
    exact ⟨same.trans h.rowCount, opened⟩
  · rw [opened.1]
    by_cases same : current = row
    · subst same
      simp only [if_true]
      exact .pure ⟨h.rowCount, opened⟩
    · simp only [same, if_false]
      refine (issue_pre_succeeds opened).bind ?_
      rintro _ b₁ ⟨same₁, closed⟩
      have count : b₁.rowCount = rows := same₁.trans h.rowCount
      refine (issue_act_succeeds closed (count ▸ row_lt)).bind ?_
      rintro _ b₂ ⟨same₂, opened⟩
      exact .pure ⟨same₂.trans count, opened⟩

/-- A waiting bank serves a request for any of its rows and then waits again. -/
theorem serve_succeeds (autoPrecharge : Bool) (access : Access) (h : b.Ready rows)
    (row_lt : row < rows) :
    Succeeds (serve autoPrecharge access row time) b fun _ b' => b'.Ready rows := by
  refine .get_bind ?_
  -- The invariant is stated between requests, so the refresh before one has to restore it.
  have refreshed : Succeeds (if b.refreshDue time then refresh time else Pure.pure .zero) b
      fun _ b' => b'.Ready rows := by
    split
    · exact refresh_succeeds h
    · exact .pure h
  apply Succeeds.ite_bind refreshed
  intro refreshing b₁ ready
  refine (bring_succeeds ready row_lt).bind ?_
  rintro opening b₂ ⟨count₂, opened⟩
  refine (issue_column_succeeds access opened).bind ?_
  rintro column b₃ ⟨same₃, opened⟩
  have count₃ : b₃.rowCount = rows := same₃.trans count₂
  cases autoPrecharge with
  | false => exact .pure ⟨count₃, h.positive, .inr ⟨row, opened⟩⟩
  | true =>
      refine (issue_pre_succeeds opened).bind ?_
      rintro _ b₄ ⟨same₄, closed⟩
      exact .pure ⟨same₄.trans count₃, h.positive, .inl closed⟩

end Bank

/-! ## Vaults -/

namespace Vault

variable {v : Vault} {banks rows bank row : Nat} {time : Time}

/-- All banks of the vault are there and wait for a request. -/
structure Ready (v : Vault) (banks rows : Nat) : Prop where
  size : v.banks.size = banks
  ready : ∀ (bank : Nat) (b : Bank), v.banks[bank]? = some b → b.Ready rows

theorem Ready.exists_bank (h : v.Ready banks rows) (hbank : bank < banks) :
    ∃ b, v.banks[bank]? = some b ∧ b.Ready rows := by
  have found := Array.getElem?_eq_getElem (h.size ▸ hbank : bank < v.banks.size)
  exact ⟨_, found, h.ready bank _ found⟩

theorem Ready.withBank {b : Bank} (h : v.Ready banks rows) (hb : b.Ready rows) :
    (v.withBank bank b).Ready banks rows := by
  have size : (v.withBank bank b).banks.size = banks :=
    (Array.size_setIfInBounds ..).trans h.size
  exact ⟨size, forall_setIfInBounds h.ready hb⟩

theorem Ready.mapBanks {f : Bank → Bank} (h : v.Ready banks rows)
    (hf : ∀ b : Bank, b.Ready rows → (f b).Ready rows) : (v.mapBanks f).Ready banks rows := by
  have size : (v.mapBanks f).banks.size = banks := Array.size_map.trans h.size
  exact ⟨size, forall_map h.ready hf⟩

theorem Ready.resetActivity (h : v.Ready banks rows) : v.resetActivity.Ready banks rows := by
  have reset := h.mapBanks fun _ ready => ready.resetActivity
  exact ⟨reset.size, reset.ready⟩

theorem onBank_succeeds {α : Type} {step : BankStep α} (h : v.Ready banks rows)
    (hbank : bank < banks)
    (hstep : ∀ b : Bank, b.Ready rows → Succeeds step b fun _ b' => b'.Ready rows) :
    Succeeds (onBank bank step) v fun _ v' => v'.Ready banks rows := by
  rcases h.exists_bank hbank with ⟨b, hb, ready⟩
  rcases hstep b ready with ⟨a, b', run, ready'⟩
  refine ⟨a, v.withBank bank b', ?_, h.withBank ready'⟩
  simp only [onBank, hb, run]

theorem request_succeeds (access : Access) (h : v.Ready banks rows) (hbank : bank < banks)
    (hrow : row < rows) :
    Succeeds (request access bank row time) v fun _ v' => v'.Ready banks rows := by
  refine .get_bind ?_
  refine (onBank_succeeds h hbank fun b ready => b.serve_succeeds _ access ready hrow).bind ?_
  intro _ v' ready
  refine Succeeds.bind (P := fun _ v' => v'.Ready banks rows) (.modify ?_) fun _ _ r => .pure r
  exact ⟨ready.size, ready.ready⟩

theorem requestMany_succeeds (access : Access) (hbank : bank < banks) (hrow : row < rows) (n : Nat)
    (elapsed : Time) (h : v.Ready banks rows) :
    Succeeds (requestMany access bank row time n elapsed) v fun _ v' => v'.Ready banks rows := by
  -- On the number of requests; each starts where the one before has left the vault.
  induction n generalizing v elapsed with
  | zero => exact .pure h
  | succ n ih => exact (request_succeeds access h hbank hrow).bind fun _ _ ready => ih _ ready

end Vault

/-! ## Stacks -/

namespace Stack

variable {s : Stack} {g : Geometry} {p : BankPlace} {time : Time}

/-- The stack has the extent `g`, and all its banks wait for a request. -/
structure Ready (s : Stack) (g : Geometry) : Prop where
  geometry : s.geometry = g
  size : s.vaults.size = g.vaults
  ready : ∀ (vault : Nat) (v : Vault), s.vaults[vault]? = some v → v.Ready g.banks g.rows

theorem Ready.withVault {vault : Nat} {v : Vault} (h : s.Ready g) (hv : v.Ready g.banks g.rows) :
    (s.withVault vault v).Ready g := by
  have size : (s.withVault vault v).vaults.size = g.vaults :=
    (Array.size_setIfInBounds ..).trans h.size
  exact ⟨h.geometry, size, forall_setIfInBounds h.ready hv⟩

theorem onVault_succeeds {α : Type} {step : VaultStep α} {vault : Nat} (h : s.Ready g)
    (hvault : vault < g.vaults)
    (hstep : ∀ v : Vault, v.Ready g.banks g.rows →
      Succeeds step v fun _ v' => v'.Ready g.banks g.rows) :
    Succeeds (onVault vault step) s fun _ s' => s'.Ready g := by
  have found := Array.getElem?_eq_getElem (h.size ▸ hvault : vault < s.vaults.size)
  rcases hstep _ (h.ready vault _ found) with ⟨a, v', run, ready'⟩
  refine ⟨a, s.withVault vault v', ?_, h.withVault ready'⟩
  simp only [onVault, found, run]

/-- A transfer to or from a row of the stack succeeds. -/
theorem transfer_succeeds (access : Access) (bytes : Nat) {l : Location} (h : s.Ready g)
    (held : g.holds l.place = true) (hrow : l.row < g.rows) :
    Succeeds (transfer access bytes l time) s fun _ s' => s'.Ready g := by
  rcases Geometry.holds_iff.1 held with ⟨hvault, hbank⟩
  refine .get_bind ?_
  refine (onVault_succeeds h hvault fun v ready =>
    v.requestMany_succeeds access hbank hrow _ _ ready).bind fun _ _ ready => ?_
  exact .pure ready

theorem Ready.setHot {s' : Stack} {hot : Bool} {u : Unit} (h : s.Ready g)
    (hs : Stack.setHot p hot s = .ok u s') : s'.Ready g := by
  unfold Stack.setHot onVault at hs
  split at hs
  · cases hs
  · rename_i v hv
    have ready := h.ready _ v hv
    -- The mark is set on a bank that is found, whatever the bank is doing.
    unfold Vault.onBank at hs
    cases hb : v.banks[p.bank]? with
    | none => simp [hb] at hs
    | some b =>
        simp only [hb] at hs
        cases hs
        exact h.withVault (ready.withBank ((ready.ready _ b hb).setHot hot))

theorem Ready.resetActivity (h : s.Ready g) : s.resetActivity.Ready g :=
  ⟨h.geometry, Array.size_map.trans h.size, forall_map h.ready fun _ ready => ready.resetActivity⟩

/-- A stack at rest is ready if its banks and rows are counted exactly and there are rows. -/
theorem ofSettings_ready {s : StackSettings}
    (exact : s.banksPerVault = s.vaultSize.toNat / s.bankSize.toNat)
    (positive : 0 < s.rowsPerBank) : (ofSettings s).Ready (.ofSettings s) := by
  refine ⟨rfl, by simp [ofSettings, Geometry.ofSettings], ?_⟩
  intro i v hv
  simp only [ofSettings, Array.getElem?_map, Option.map_eq_some_iff] at hv
  rcases hv with ⟨id, _, rfl⟩
  have fresh : (Vault.ofSizes id s.vaultSize.toNat s.bankSize.toNat s.rowSize.toNat s.autoPrecharge
      s.speed).Ready s.banksPerVault s.rowsPerBank := by
    refine ⟨by simp [Vault.ofSizes, exact], ?_⟩
    intro bank b hb
    simp only [Vault.ofSizes, Array.getElem?_replicate] at hb
    split at hb
    · cases hb
      exact Bank.ofSize_ready positive
    · cases hb
  -- An interval of refreshes changes neither the rows nor the last command of a bank.
  cases s.refresh with
  | false => exact fresh
  | true => exact fresh.mapBanks fun _ ready => ready.setRefreshInterval _

end Stack

end StackedCache
