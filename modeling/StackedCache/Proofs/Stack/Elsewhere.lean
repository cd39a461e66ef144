import StackedCache.Proofs.Step
import StackedCache.Stack.Basic

/-!
# Banks that a transfer does not reach

Whether it is served or refused, a transfer changes the bank that has its row and no other one.
-/

namespace StackedCache

namespace Vault

/-- The vaults differ in one bank at most. -/
def SameBut (bank : Nat) (v v' : Vault) : Prop := ∀ i, i ≠ bank → v'.banks[i]? = v.banks[i]?

instance (bank : Nat) : IsPreorder Vault (SameBut bank) where
  refl _ := fun _ _ => rfl
  trans _ _ _ h h' := fun i hi => (h' i hi).trans (h i hi)

variable {v : Vault}

theorem withBank_sameBut (v : Vault) (bank : Nat) (b : Bank) : v.SameBut bank (v.withBank bank b) :=
  fun _ hi => Array.getElem?_setIfInBounds_ne (Ne.symm hi)

theorem onBank_sameBut {α : Type} (bank : Nat) (step : BankStep α) :
    Leads (SameBut bank) (onBank bank step) v := by
  unfold Leads onBank
  cases v.banks[bank]? with
  | none => exact refl v
  | some b =>
      simp only
      cases step b <;> exact v.withBank_sameBut bank _

theorem request_sameBut (access : Access) (bank row : Nat) (time : Time) :
    Leads (SameBut bank) (request access bank row time) v := by
  refine .bind (.pure v) fun _ _ _ => .bind (onBank_sameBut bank _) fun latency v₁ _ => ?_
  exact .bind (.modify fun _ _ => rfl) fun _ _ _ => .pure latency

theorem requestMany_sameBut (access : Access) (bank row : Nat) (time : Time) (n : Nat)
    (elapsed : Time) : Leads (SameBut bank) (requestMany access bank row time n elapsed) v := by
  induction n generalizing elapsed v with
  | zero => exact .pure elapsed
  | succ n ih => exact .bind (request_sameBut access bank row _) fun _ _ _ => ih _

end Vault

namespace Stack

/-- The stacks differ in one bank at most. -/
def SameBut (p : BankPlace) (s s' : Stack) : Prop := ∀ q, q ≠ p → s'.bank? q = s.bank? q

instance (p : BankPlace) : IsPreorder Stack (SameBut p) where
  refl _ := fun _ _ => rfl
  trans _ _ _ h h' := fun q hq => (h' q hq).trans (h q hq)

variable {s : Stack}

theorem withVault_sameBut {v v' : Vault} {p : BankPlace} (found : s.vaults[p.vault]? = some v)
    (same : v.SameBut p.bank v') : s.SameBut p (s.withVault p.vault v') := by
  intro q hq
  unfold bank? vault? withVault
  by_cases vault : q.vault = p.vault
  · -- Within the vault, another place is another bank.
    have bank : q.bank ≠ p.bank := by
      intro heq
      cases q
      cases p
      simp_all
    have hlt : p.vault < s.vaults.size := (Array.getElem?_eq_some_iff.1 found).1
    simp only [vault, found, Array.getElem?_setIfInBounds_self, if_pos hlt]
    exact same q.bank bank
  · simp only [Array.getElem?_setIfInBounds_ne (Ne.symm vault)]

theorem onVault_sameBut {α : Type} {p : BankPlace} {step : VaultStep α}
    (same : ∀ v : Vault, Leads (Vault.SameBut p.bank) step v) :
    Leads (SameBut p) (onVault p.vault step) s := by
  unfold Leads onVault
  cases found : s.vaults[p.vault]? with
  | none => exact refl s
  | some v =>
      have done := same v
      unfold Leads at done
      cases run : step v with
      | ok a v' =>
          rw [run] at done
          simp only [run]
          exact withVault_sameBut found done
      | error cause v' =>
          rw [run] at done
          simp only [run]
          exact withVault_sameBut found done

/-- The stacks have the same extent and are asked in units of the same size. -/
structure SameShape (s s' : Stack) : Prop where
  geometry : s'.geometry = s.geometry
  requestBytes : s'.requestBytes = s.requestBytes
  rowSize : s'.rowSize = s.rowSize

instance : IsPreorder Stack SameShape where
  refl _ := ⟨rfl, rfl, rfl⟩
  trans _ _ _ h h' := ⟨h'.geometry.trans h.geometry, h'.requestBytes.trans h.requestBytes,
    h'.rowSize.trans h.rowSize⟩

theorem onVault_sameShape {α : Type} (vault : Nat) (step : VaultStep α) :
    Leads SameShape (onVault vault step) s := by
  unfold Leads onVault
  cases s.vaults[vault]? with
  | none => exact refl s
  | some v =>
      simp only
      cases step v <;> exact ⟨rfl, rfl, rfl⟩

theorem transfer_sameShape (access : Access) (bytes : Nat) (row : Location) (time : Time) :
    Leads SameShape (transfer access bytes row time) s :=
  .bind (.pure s) fun _ _ _ => .bind (onVault_sameShape _ _) fun _ _ _ => .pure _

/-- A transfer takes the requests that its bytes need. -/
theorem transfer_requests (access : Access) (bytes : Nat) (row : Location) (time : Time) :
    Yields (transfer access bytes row time) s fun t _ => t.requests = s.requestsFor bytes := by
  refine .get_bind (Yields.bind (P := fun _ _ => True) (fun _ _ _ => trivial) fun served s' _ => ?_)
  exact .pure rfl

/-- A transfer changes the bank of its row only. -/
theorem transfer_sameBut (access : Access) (bytes : Nat) (row : Location) (time : Time) :
    Leads (SameBut row.place) (transfer access bytes row time) s := by
  have served : ∀ (n : Nat) (s : Stack), Leads (SameBut row.place)
      (onVault row.vault (Vault.requestMany access row.bank row.row time n .zero)) s := fun n s =>
    onVault_sameBut fun _ => Vault.requestMany_sameBut access row.bank row.row time n .zero
  exact .bind (.pure s) fun _ s₁ _ => .bind (served _ s₁) fun _ _ _ => .pure _

end Stack

end StackedCache
