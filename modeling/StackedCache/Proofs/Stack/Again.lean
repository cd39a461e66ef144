import StackedCache.Proofs.Stack.Accesses
import StackedCache.Proofs.Stack.Ready

/-!
# Rows that can be had again

A bank that has served a request for a row offers it: it waits for a request, whatever it did before,
and has the row.  As long as it does, it serves every request for the row.  So a stack that has
served a transfer serves the next one for the same row.
-/

namespace StackedCache

namespace Bank

variable {b : Bank} {row : Nat}

/-- The bank waits for a request and has the row. -/
def Offers (row : Nat) (b : Bank) : Prop := ∃ rows, b.Ready rows ∧ row < rows

theorem Offers.serve (h : b.Offers row) (autoPrecharge : Bool) (access : Access) (time : Time) :
    Succeeds (serve autoPrecharge access row time) b fun _ b' => b'.Offers row := by
  rcases h with ⟨rows, ready, row_lt⟩
  exact (serve_succeeds autoPrecharge access ready row_lt).mono fun _ _ ready =>
    ⟨rows, ready, row_lt⟩

/-- What a permitted command says about the bank. -/
theorem issue_permits (command : Command) (row : Nat) (time : Time) (b : Bank) :
    Yields (issue command row time) b fun _ b' =>
      row < b.rowCount ∧ (command.isColumn = true → b.openRow = some row) ∧
        ∃ t l, b' = b.accept command row t l := by
  intro latency b' done
  rw [issue_apply] at done
  cases permitted : b.permit command row with
  | error cause =>
      rw [permitted] at done
      cases done
  | ok legal =>
      rw [permitted] at done
      cases done
      rcases permit_eq_ok_iff.1 permitted with ⟨row_lt, column, _⟩
      exact ⟨row_lt, column, time, _, rfl⟩

/-- A request that has been served ends in a column access, or in the precharge after it. -/
theorem serve_offers (autoPrecharge : Bool) (access : Access) (row : Nat) (time : Time) (b : Bank) :
    Yields (Bank.serve autoPrecharge access row time) b fun _ b' => b'.Offers row := by
  refine .get_bind ?_
  refine Yields.ite_bind (P := fun _ _ => True) (fun _ _ _ => trivial) fun refreshing b₁ _ => ?_
  refine Yields.bind (P := fun _ _ => True) (fun _ _ _ => trivial) fun opening b₂ _ => ?_
  refine (issue_permits (columnCommand access) row _ b₂).bind ?_
  rintro latency _ ⟨row_lt, column, t, l, rfl⟩
  have isOpen : b₂.openRow = some row := column (by cases access <;> rfl)
  have accessed : Opened (b₂.accept (columnCommand access) row t l) row := by
    cases access with
    | read => exact ⟨isOpen, row_lt, .inr (.inl rfl)⟩
    | write => exact ⟨isOpen, row_lt, .inr (.inr rfl)⟩
  have positive : 0 < b₂.rowCount := Nat.lt_of_le_of_lt (Nat.zero_le row) row_lt
  cases autoPrecharge with
  | false => exact .pure ⟨_, ⟨rfl, positive, .inr ⟨row, accessed⟩⟩, row_lt⟩
  | true =>
      refine (issue_permits .pre row _ _).bind ?_
      rintro closing _ ⟨_, _, t', l', rfl⟩
      exact .pure ⟨_, ⟨rfl, positive, .inl ⟨rfl, .inl rfl⟩⟩, row_lt⟩

theorem Offers.setHot (h : b.Offers row) (hot : Bool) : (b.setHot hot).Offers row := by
  rcases h with ⟨rows, ready, row_lt⟩
  unfold Bank.setHot
  split
  · exact ⟨rows, ready, row_lt⟩
  · exact ⟨rows, ⟨ready.rowCount, ready.positive, ready.waiting⟩, row_lt⟩

theorem Offers.resetActivity (h : b.Offers row) : b.resetActivity.Offers row := by
  rcases h with ⟨rows, ready, row_lt⟩
  exact ⟨rows, ⟨ready.rowCount, ready.positive, ready.waiting⟩, row_lt⟩

end Bank

/-! ## Vaults -/

namespace Vault

variable {v : Vault} {bank row : Nat}

/-- A bank of the vault offers the row. -/
def Offers (bank row : Nat) (v : Vault) : Prop := ∃ b, v.banks[bank]? = some b ∧ b.Offers row

theorem Offers.withBank {b : Bank} (h : v.Offers bank row) (offers : b.Offers row) :
    (v.withBank bank b).Offers bank row := by
  rcases h with ⟨old, found, _⟩
  refine ⟨b, ?_, offers⟩
  rw [Vault.withBank, getElem?_setIfInBounds_of_some found]

theorem Offers.request (h : v.Offers bank row) (access : Access) (time : Time) :
    Succeeds (request access bank row time) v fun _ v' => v'.Offers bank row := by
  refine .get_bind ?_
  rcases h with ⟨b, found, offers⟩
  rcases offers.serve v.autoPrecharge access time with ⟨latency, b', run, offers'⟩
  have served : Succeeds (onBank bank (Bank.serve v.autoPrecharge access row time)) v
      fun _ v' => v'.Offers bank row := by
    refine ⟨latency, v.withBank bank b', ?_, Offers.withBank ⟨b, found, offers⟩ offers'⟩
    simp only [onBank, found, run]
  refine served.bind fun _ _ offers => ?_
  exact Succeeds.bind (P := fun _ v' => v'.Offers bank row) (.modify offers) fun _ _ offers =>
    .pure offers

theorem Offers.requestMany (access : Access) (time : Time) (n : Nat) (elapsed : Time)
    (h : v.Offers bank row) :
    Succeeds (requestMany access bank row time n elapsed) v fun _ v' => v'.Offers bank row := by
  induction n generalizing v elapsed with
  | zero => exact .pure h
  | succ n ih => exact (h.request access _).bind fun _ _ offers => ih _ offers

theorem request_offers (access : Access) (bank row : Nat) (time : Time) (v : Vault) :
    Yields (Vault.request access bank row time) v fun _ v' => v'.Offers bank row := by
  refine .get_bind ?_
  refine Yields.bind (P := fun _ v' => v'.Offers bank row) ?_ fun _ _ offers => ?_
  · intro latency v' done
    unfold onBank at done
    cases found : v.banks[bank]? with
    | none => simp [found] at done
    | some b =>
        simp only [found] at done
        cases run : Bank.serve v.autoPrecharge access row time b with
        | error cause b' => simp [run] at done
        | ok served b' =>
            simp only [run, EStateM.Result.ok.injEq] at done
            rcases done with ⟨_, rfl⟩
            refine ⟨b', ?_, Bank.serve_offers v.autoPrecharge access row time b served b' run⟩
            rw [Vault.withBank, getElem?_setIfInBounds_of_some found]
  · exact Yields.bind (P := fun _ v' => v'.Offers bank row) (.modify offers) fun _ _ offers =>
      .pure offers

/-- The last request settles it. -/
theorem requestMany_offers (access : Access) (bank row : Nat) (time : Time) (n : Nat)
    (elapsed : Time) (v : Vault) :
    Yields (Vault.requestMany access bank row time (n + 1) elapsed) v
      fun _ v' => v'.Offers bank row := by
  induction n generalizing v elapsed with
  | zero => exact (request_offers access bank row _ v).bind fun _ _ offers => .pure offers
  | succ n ih => exact (request_offers access bank row _ v).bind fun _ _ _ => ih _ _

/-- A mark on a bank of the vault. -/
theorem setHot_offers (p : Nat) (hot : Bool) (v : Vault) :
    Yields (onBank p (modify (·.setHot hot))) v fun _ v' =>
      v.Offers bank row → v'.Offers bank row := by
  rintro u v' done ⟨b, found, offers⟩
  unfold onBank at done
  cases marked : v.banks[p]? with
  | none => simp [marked] at done
  | some b₁ =>
      simp only [marked] at done
      cases done
      by_cases same : p = bank
      · subst same
        rw [found] at marked
        cases marked
        exact Offers.withBank ⟨b, found, offers⟩ (offers.setHot hot)
      · exact ⟨b, (Array.getElem?_setIfInBounds_ne same).trans found, offers⟩

end Vault

/-! ## Stacks -/

namespace Stack

variable {s : Stack} {l : Location} {p : BankPlace}

/-- The bank of a row offers it. -/
def Offers (l : Location) (s : Stack) : Prop :=
  ∃ v, s.vaults[l.vault]? = some v ∧ v.Offers l.bank l.row

theorem offers_iff : s.Offers l ↔ ∃ b, s.bank? l.place = some b ∧ b.Offers l.row := by
  simp only [Offers, Vault.Offers, bank?, vault?, Option.bind_eq_bind, Option.bind_eq_some_iff,
    Location.place]
  grind

/-- A transfer of a row on offer succeeds, and the row stays on offer. -/
theorem Offers.transfer (h : s.Offers l) (access : Access) (bytes : Nat) (time : Time) :
    Succeeds (transfer access bytes l time) s fun _ s' => s'.Offers l := by
  refine .get_bind ?_
  rcases h with ⟨v, found, offers⟩
  rcases offers.requestMany access time (s.requestsFor bytes) .zero with
    ⟨served, v', run, offers'⟩
  have transferred : Succeeds (onVault l.vault
      (Vault.requestMany access l.bank l.row time (s.requestsFor bytes) .zero)) s
      fun _ s' => s'.Offers l := by
    refine ⟨served, s.withVault l.vault v', ?_, v', ?_, offers'⟩
    · simp only [onVault, found, run]
    · rw [Stack.withVault, getElem?_setIfInBounds_of_some found]
  exact transferred.bind fun _ _ offers => .pure offers

/-- A transfer that succeeds leaves its row on offer. -/
theorem transfer_offers (access : Access) (bytes : Nat) (l : Location) (time : Time) (s : Stack) :
    Yields (Stack.transfer access bytes l time) s fun _ s' => s'.Offers l := by
  refine .get_bind ?_
  refine Yields.bind (P := fun _ s' => s'.Offers l) ?_ fun _ _ offers => .pure offers
  intro served s' done
  -- An empty transfer needs a request, too.
  have some_request : s.requestsFor bytes = s.requestsFor bytes - 1 + 1 := by
    have : 1 ≤ s.requestsFor bytes := Nat.le_max_left 1 _
    omega
  rw [some_request] at done
  unfold onVault at done
  cases found : s.vaults[l.vault]? with
  | none => simp [found] at done
  | some v =>
      simp only [found] at done
      cases run : Vault.requestMany access l.bank l.row time (s.requestsFor bytes - 1 + 1) .zero v with
      | error cause v' => simp [run] at done
      | ok latency v' =>
          simp only [run, EStateM.Result.ok.injEq] at done
          rcases done with ⟨_, rfl⟩
          refine ⟨v', ?_, Vault.requestMany_offers access l.bank l.row time _ .zero v latency v' run⟩
          rw [Stack.withVault, getElem?_setIfInBounds_of_some found]

/-- A mark on a bank of the stack. -/
theorem setHot_offers (p : BankPlace) (hot : Bool) (s : Stack) :
    Yields (Stack.setHot p hot) s fun _ s' => s.Offers l → s'.Offers l := by
  rintro u s' done ⟨v, found, offers⟩
  unfold Stack.setHot onVault at done
  cases marked : s.vaults[p.vault]? with
  | none => simp [marked] at done
  | some v₁ =>
      simp only [marked] at done
      cases run : Vault.onBank p.bank (modify (·.setHot hot)) v₁ with
      | error cause v' => simp [run] at done
      | ok u v' =>
          simp only [run, EStateM.Result.ok.injEq] at done
          rcases done with ⟨_, rfl⟩
          by_cases same : p.vault = l.vault
          · rw [same, found] at marked
            cases marked
            refine ⟨v', ?_, Vault.setHot_offers p.bank hot v u v' run offers⟩
            rw [Stack.withVault, same, getElem?_setIfInBounds_of_some found]
          · exact ⟨v, (Array.getElem?_setIfInBounds_ne same).trans found, offers⟩

theorem Offers.resetActivity (h : s.Offers l) : s.resetActivity.Offers l := by
  rcases offers_iff.1 h with ⟨b, found, offers⟩
  refine offers_iff.2 ⟨b.resetActivity, ?_, offers.resetActivity⟩
  rw [bank?_resetActivity, found]
  rfl

end Stack

end StackedCache
