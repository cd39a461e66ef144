import StackedCache.Proofs.Stack.Ready

/-!
# Requests that vaults refuse

A vault refuses requests for banks and rows it does not have, and no others.  A request for a row
that is missing may have refreshed the bank and closed its open row when it is refused; but the bank
then waits for a request as it did before.  So nothing that happens to a vault keeps it from serving
the next request: `run_serves`.
-/

namespace StackedCache

/-! ## Banks -/

namespace Bank

variable {b : Bank} {rows row : Nat} {time : Time}

/-- No command is accepted for a row that is missing. -/
theorem issue_refuses (command : Command) (beyond : b.rowCount ≤ row) :
    Refuses (issue command row time) b (.rowOutOfRange row b.rowCount) (· = b) := by
  have refused : b.permit command row = .error (.rowOutOfRange row b.rowCount) := if_pos beyond
  exact ⟨b, by rw [issue_apply, refused], rfl⟩

theorem bring_refuses (h : b.Ready rows) (beyond : rows ≤ row) :
    Refuses (bring row time) b (.rowOutOfRange row rows) (·.Ready rows) := by
  -- What fails is the activation, wherever it starts from.
  have activation : ∀ (b' : Bank) (time : Time), b'.Ready rows →
      Refuses (issue .act row time) b' (.rowOutOfRange row rows) (·.Ready rows) := by
    intro b' time ready
    rcases issue_refuses .act (ready.rowCount ▸ beyond) with ⟨_, failed, rfl⟩
    rw [ready.rowCount] at failed
    exact ⟨_, failed, ready⟩
  refine .get_bind ?_
  rcases h.waiting with closed | ⟨current, opened⟩
  · rw [closed.1]
    exact activation b time h
  · rw [opened.1]
    have other : current ≠ row := by
      rintro rfl
      exact absurd opened.2.1 (Nat.not_lt.2 (h.rowCount ▸ beyond))
    simp only [other, if_false]
    refine .after (issue_pre_succeeds opened) ?_
    rintro closing b₁ ⟨same, closed⟩
    exact .bind (activation b₁ _ ⟨same.trans h.rowCount, h.positive, .inl closed⟩)

/-- A request for a row that is missing is refused, and the bank waits for the next one. -/
theorem serve_refuses (autoPrecharge : Bool) (access : Access) (h : b.Ready rows)
    (beyond : rows ≤ row) :
    Refuses (serve autoPrecharge access row time) b (.rowOutOfRange row rows) (·.Ready rows) := by
  refine .get_bind ?_
  have refreshed : Succeeds (if b.refreshDue time then refresh time else Pure.pure .zero) b
      fun _ b' => b'.Ready rows := by
    split
    · exact refresh_succeeds h
    · exact .pure h
  refine .after_ite refreshed ?_
  intro refreshing b₁ ready
  exact .bind (bring_refuses ready beyond)

end Bank

/-! ## Vaults -/

namespace Vault

variable {v : Vault} {banks rows bank row : Nat} {time : Time}

/-- An operation of a vault. -/
inductive Operation where
  | request (access : Access) (bank row : Nat) (time : Time)
  | setRefreshInterval (interval : Time)
  | setHot (bank : Nat) (hot : Bool)
  | resetActivity

/-- Performs an operation.  What a refused one has done stays done. -/
def perform (v : Vault) : Operation → Vault
  | .request access bank row time => final (request access bank row time v)
  | .setRefreshInterval interval => v.setRefreshInterval interval
  | .setHot bank hot => final (onBank bank (modify (·.setHot hot)) v)
  | .resetActivity => v.resetActivity

/-- Performs operations in order. -/
def run (v : Vault) (ops : List Operation) : Vault := ops.foldl perform v

theorem ofSizes_ready {id vaultSize bankSize rowSize : Nat} {autoPrecharge : Bool} {speed : Speed}
    (positive : 0 < (Bank.ofSize bankSize rowSize speed).rowCount) :
    (ofSizes id vaultSize bankSize rowSize autoPrecharge speed).Ready (vaultSize / bankSize)
      (Bank.ofSize bankSize rowSize speed).rowCount := by
  refine ⟨Array.size_replicate, ?_⟩
  intro bank b found
  simp only [ofSizes, Array.getElem?_replicate] at found
  split at found
  · cases found
    exact Bank.ofSize_ready positive
  · cases found

/-- What is done on a bank is refused if the vault does not have it. -/
theorem onBank_refuses {α : Type} {step : BankStep α} (h : v.Ready banks rows)
    (beyond : banks ≤ bank) :
    Refuses (onBank bank step) v (.bankOutOfRange bank v.bankCount) (· = v) := by
  have absent : v.banks[bank]? = none := Array.getElem?_eq_none (h.size ▸ beyond)
  exact ⟨v, by simp only [onBank, absent], rfl⟩

theorem request_refuses_bank (access : Access) (row : Nat) (time : Time) (h : v.Ready banks rows)
    (beyond : banks ≤ bank) :
    Refuses (request access bank row time) v (.bankOutOfRange bank v.bankCount)
      (·.Ready banks rows) := by
  refine .get_bind (.bind ?_)
  rcases onBank_refuses h beyond with ⟨_, failed, same⟩
  exact ⟨_, failed, same ▸ h⟩

theorem request_refuses_row (access : Access) (time : Time) (h : v.Ready banks rows)
    (inside : bank < banks) (beyond : rows ≤ row) :
    Refuses (request access bank row time) v (.rowOutOfRange row rows) (·.Ready banks rows) := by
  refine .get_bind (.bind ?_)
  rcases h.exists_bank inside with ⟨b, found, ready⟩
  have refused : Refuses (Bank.serve v.autoPrecharge access row time) b (.rowOutOfRange row rows)
      (·.Ready rows) := b.serve_refuses v.autoPrecharge access ready beyond
  rcases refused with ⟨b', failed, ready'⟩
  refine ⟨v.withBank bank b', ?_, h.withBank ready'⟩
  simp only [onBank, found, failed]

/-- Served or refused, a request leaves all banks waiting for the next one. -/
theorem Ready.request (h : v.Ready banks rows) (access : Access) (bank row : Nat) (time : Time) :
    (final (Vault.request access bank row time v)).Ready banks rows := by
  by_cases inside : bank < banks
  · by_cases present : row < rows
    · rcases request_succeeds access h inside present with ⟨latency, v', served, ready⟩
      rw [served]
      exact ready
    · rcases request_refuses_row access time h inside (Nat.not_lt.1 present) with
        ⟨v', refused, ready⟩
      rw [refused]
      exact ready
  · rcases request_refuses_bank access row time h (Nat.not_lt.1 inside) with ⟨v', refused, ready⟩
    rw [refused]
    exact ready

theorem Ready.setHot (h : v.Ready banks rows) (bank : Nat) (hot : Bool) :
    (v.perform (.setHot bank hot)).Ready banks rows := by
  simp only [perform, onBank]
  cases found : v.banks[bank]? with
  | none => exact h
  | some b => exact h.withBank ((h.ready bank b found).setHot hot)

theorem Ready.perform (h : v.Ready banks rows) (op : Operation) :
    (v.perform op).Ready banks rows := by
  cases op with
  | request access bank row time => exact h.request access bank row time
  | setRefreshInterval interval => exact h.mapBanks fun _ ready => ready.setRefreshInterval interval
  | setHot bank hot => exact h.setHot bank hot
  | resetActivity => exact h.resetActivity

theorem Ready.run (h : v.Ready banks rows) (ops : List Operation) : (v.run ops).Ready banks rows := by
  induction ops generalizing v with
  | nil => exact h
  | cons op ops ih => exact ih (h.perform op)

/-- Whatever has happened to a vault whose banks have rows, it serves every request for a bank and
row it has.  The other requests are refused for their own bank, or else for their own row. -/
theorem run_serves {id vaultSize bankSize rowSize : Nat} {autoPrecharge : Bool} {speed : Speed}
    (positive : 0 < (Bank.ofSize bankSize rowSize speed).rowCount) (ops : List Operation)
    (access : Access) (bank row : Nat) (time : Time) :
    let banks := vaultSize / bankSize
    let rows := (Bank.ofSize bankSize rowSize speed).rowCount
    let v := (ofSizes id vaultSize bankSize rowSize autoPrecharge speed).run ops
    (bank < banks → row < rows → ∃ latency v', request access bank row time v = .ok latency v') ∧
      ∀ cause v', request access bank row time v = .error cause v' →
        banks ≤ bank ∧ cause = .bankOutOfRange bank (narrow banks) ∨
          bank < banks ∧ rows ≤ row ∧ cause = .rowOutOfRange row rows := by
  intro banks rows v
  have ready : v.Ready banks rows := (ofSizes_ready positive).run ops
  have served : bank < banks → row < rows →
      ∃ latency v', request access bank row time v = .ok latency v' := by
    intro inside present
    have succeeds : Succeeds (request access bank row time) v fun _ v' => v'.Ready banks rows :=
      request_succeeds access ready inside present
    rcases succeeds with ⟨latency, v', done, _⟩
    exact ⟨latency, v', done⟩
  refine ⟨served, fun cause v' failed => ?_⟩
  by_cases inside : bank < banks
  · by_cases present : row < rows
    · rcases served inside present with ⟨latency, v'', done⟩
      rw [done] at failed
      cases failed
    · rcases request_refuses_row access time ready inside (Nat.not_lt.1 present) with
        ⟨_, refused, _⟩
      rw [refused] at failed
      cases failed
      exact .inr ⟨inside, Nat.not_lt.1 present, rfl⟩
  · rcases request_refuses_bank access row time ready (Nat.not_lt.1 inside) with ⟨_, refused, _⟩
    rw [refused] at failed
    cases failed
    have count : v.bankCount = narrow banks := congrArg narrow ready.size
    exact .inl ⟨Nat.not_lt.1 inside, congrArg (TimingFault.bankOutOfRange bank) count⟩

/-- A read of a row that is missing comes when a refresh is due: it is refused after the open row has
been closed and the bank has been refreshed.  Then the bank gets hot. -/
theorem run_serves_refreshed :
    let ops : List Operation :=
      [.setRefreshInterval ⟨3900000⟩, .request .write 0 1 ⟨0⟩, .request .read 0 4 ⟨5000000⟩,
        .setHot 0 true, .request .read 2 0 ⟨0⟩, .resetActivity]
    let v := (ofSizes 0 2048 1024 256 true {}).run ops
    0 < (Bank.ofSize 1024 256 {}).rowCount ∧ v.banks[0]?.map Bank.last = some .refsb ∧
      (∃ latency v', request .read 0 3 ⟨0⟩ v = .ok latency v') ∧
      ∃ v', request .read 0 4 ⟨0⟩ v = .error (.rowOutOfRange 4 4) v' := by
  intro ops v
  have positive : 0 < (Bank.ofSize 1024 256 {}).rowCount := by decide
  have refreshed : v.banks[0]?.map Bank.last = some .refsb := by decide +kernel
  have serves := @run_serves 0 2048 1024 256 true {} positive ops .read 0 3 ⟨0⟩
  have ready : v.Ready 2 4 := (ofSizes_ready positive).run ops
  rcases request_refuses_row .read ⟨0⟩ ready (by decide : 0 < 2) (Nat.le_refl 4) with
    ⟨v', refused, _⟩
  exact ⟨positive, refreshed, serves.1 (by decide) (by decide), v', refused⟩

end Vault

end StackedCache
