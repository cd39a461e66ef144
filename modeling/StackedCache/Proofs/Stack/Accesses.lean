import Mathlib.Data.List.Basic
import StackedCache.Proofs.Residency.Coherent
import StackedCache.Proofs.Stack.Ready

/-!
# Accesses counted by the stack

A bank counts one column access for each request it has served, whatever the commands around it, and
its vault counts the request.  So a transfer that has been served adds its requests to one bank of
one vault, `Stack.Serves`.
-/

namespace StackedCache

/-! ## Banks -/

/-- A record adds an access if the command is one to a column. -/
theorem Activity.accesses_record (a : Activity) (command : Command) (latency : Time)
    (rowHit : Bool) :
    (a.record command latency rowHit).accesses =
      a.accesses + if command.isColumn then 1 else 0 := by
  cases command <;> cases rowHit <;> simp +arith [record, accesses, Command.isColumn]

namespace Bank

variable {b : Bank} {row : Nat} {time : Time}

/-- Column accesses of the bank. -/
def accesses (b : Bank) : Nat := b.activity.accesses

/-- The bank has counted `n` more accesses. -/
def Counts (b : Bank) (n : Nat) (b' : Bank) : Prop := b'.accesses = b.accesses + n

theorem Counts.trans {b' b'' : Bank} {m n : Nat} (h : b.Counts m b') (h' : b'.Counts n b'') :
    b.Counts (m + n) b'' := by
  unfold Counts at h h' ⊢
  omega

theorem issue_counts (command : Command) (row : Nat) (time : Time) (b : Bank) :
    Yields (issue command row time) b fun _ b' =>
      b.Counts (if command.isColumn then 1 else 0) b' := by
  intro latency b' done
  rw [issue_apply] at done
  split at done
  · cases done
    exact b.activity.accesses_record command latency _
  · cases done

theorem closeRow_counts (time : Time) (b : Bank) :
    Yields (closeRow time) b fun _ b' => b.Counts 0 b' := by
  refine .get_bind ?_
  cases b.openRow with
  | none => exact .pure rfl
  | some row => exact issue_counts .pre row time b

theorem refresh_counts (time : Time) (b : Bank) :
    Yields (refresh time) b fun _ b' => b.Counts 0 b' := by
  refine (closeRow_counts time b).bind ?_
  intro closing b₁ closed
  refine (issue_counts .refsb 0 (time + closing) b₁).bind ?_
  intro refreshing b₂ refreshed
  exact Yields.bind (P := fun _ b' => b.Counts 0 b') (.modify (closed.trans refreshed))
    fun _ _ counts => .pure counts

theorem bring_counts (row : Nat) (time : Time) (b : Bank) :
    Yields (bring row time) b fun _ b' => b.Counts 0 b' := by
  refine .get_bind ?_
  cases b.openRow with
  | none => exact issue_counts .act row time b
  | some current =>
      refine .ite (fun _ => .pure rfl) fun _ => ?_
      refine (issue_counts .pre current time b).bind ?_
      intro closing b₁ closed
      refine (issue_counts .act row (time + closing) b₁).bind ?_
      exact fun _ _ opened => .pure (closed.trans opened)

/-- A request is one access to a column, with or without a refresh and a precharge. -/
theorem serve_counts (autoPrecharge : Bool) (access : Access) (row : Nat) (time : Time) (b : Bank) :
    Yields (serve autoPrecharge access row time) b fun _ b' => b.Counts 1 b' := by
  refine .get_bind ?_
  have refreshed : Yields (if b.refreshDue time then refresh time else Pure.pure .zero) b
      fun _ b' => b.Counts 0 b' :=
    .ite (fun _ => refresh_counts time b) fun _ => .pure rfl
  refine Yields.ite_bind refreshed fun refreshing b₁ none₁ => ?_
  refine (bring_counts row (time + refreshing) b₁).bind ?_
  intro opening b₂ none₂
  have column : (columnCommand access).isColumn = true := by cases access <;> rfl
  refine (issue_counts (columnCommand access) row _ b₂).bind ?_
  intro latency b₃ one
  rw [if_pos column] at one
  have counts : b.Counts 1 b₃ := (none₁.trans none₂).trans one
  cases autoPrecharge with
  | false => exact .pure counts
  | true =>
      refine (issue_counts .pre row _ b₃).bind ?_
      exact fun _ _ none₄ => .pure (counts.trans none₄)

end Bank

/-! ## Vaults -/

/-- An array with another element in place of one that was there, compared by a number. -/
theorem sum_map_setIfInBounds {α : Type} {xs : Array α} {i n : Nat} {x y : α} (f : α → Nat)
    (h : xs[i]? = some x) (grown : f y = f x + n) :
    ((xs.setIfInBounds i y).toList.map f).sum = (xs.toList.map f).sum + n := by
  have found : xs.toList[i]? = some x := by rwa [Array.getElem?_toList]
  have replaced := sum_map_modify f (fun _ => y) found
  rw [Array.toList_setIfInBounds, List.set_eq_modify]
  omega

namespace Vault

variable {v v' v'' : Vault} {bank row m n : Nat} {time : Time}

/-- Column accesses of all banks. -/
def accesses (v : Vault) : Nat := (v.banks.toList.map Bank.accesses).sum

/-- The column accesses of a bank. -/
def accessesOf? (v : Vault) (bank : Nat) : Option Nat := v.banks[bank]?.map Bank.accesses

/-- The vault has served `n` more requests, all of one bank. -/
structure Serves (v : Vault) (bank n : Nat) (v' : Vault) : Prop where
  requests : v'.requests = v.requests + n
  banks : ∀ other, v'.accessesOf? other =
    if other = bank then (v.accessesOf? bank).map (· + n) else v.accessesOf? other
  total : v'.accesses = v.accesses + n

theorem Serves.refl (v : Vault) (bank : Nat) : v.Serves bank 0 v := by
  refine ⟨rfl, ?_, rfl⟩
  intro other
  split
  · rename_i same
    simp [same]
  · rfl

theorem Serves.trans (h : v.Serves bank m v') (h' : v'.Serves bank n v'') :
    v.Serves bank (m + n) v'' := by
  refine ⟨?_, ?_, ?_⟩
  · rw [h'.requests, h.requests, Nat.add_assoc]
  · intro other
    rw [h'.banks, h.banks, h.banks]
    split
    · rw [if_pos rfl, Option.map_map]
      congr 1
      funext k
      exact Nat.add_assoc k m n
    · rfl
  · rw [h'.total, h.total, Nat.add_assoc]

/-- A step on a bank that is there. -/
theorem onBank_yields {α : Type} {step : BankStep α}
    (h : ∀ b : Bank, Yields step b fun _ b' => b.Counts n b') (bank : Nat) (v : Vault) :
    Yields (onBank bank step) v fun _ v' =>
      ∃ b b', v.banks[bank]? = some b ∧ b.Counts n b' ∧ v' = v.withBank bank b' := by
  intro a v' done
  unfold onBank at done
  split at done
  · cases done
  · rename_i b found
    split at done
    · rename_i run
      cases done
      exact ⟨b, _, found, h b _ _ run, rfl⟩
    · cases done

theorem Serves.of_bank {b b' : Bank} (found : v.banks[bank]? = some b) (counts : b.Counts n b') :
    v.Serves bank n { v.withBank bank b' with requests := v.requests + n } := by
  refine ⟨rfl, ?_, sum_map_setIfInBounds Bank.accesses found counts⟩
  intro other
  have inside := (Array.getElem?_eq_some_iff.1 found).1
  simp only [accessesOf?, withBank, Array.getElem?_setIfInBounds, inside, if_true, found,
    Option.map_some, eq_comm (a := bank)]
  split
  · exact congrArg some counts
  · rfl

/-- The bank counts its access, and then the vault counts the request. -/
theorem request_serves (access : Access) (bank row : Nat) (time : Time) (v : Vault) :
    Yields (request access bank row time) v fun _ v' => v.Serves bank 1 v' := by
  refine .get_bind ?_
  have served := onBank_yields (n := 1) (Bank.serve_counts v.autoPrecharge access row time) bank v
  refine served.bind ?_
  rintro latency _ ⟨b, b', found, counts, rfl⟩
  exact Yields.bind (P := fun _ v' => v.Serves bank 1 v') (.modify (.of_bank found counts))
    fun _ _ serves => .pure serves

theorem requestMany_serves (access : Access) (bank row : Nat) (time : Time) (n : Nat)
    (elapsed : Time) (v : Vault) :
    Yields (requestMany access bank row time n elapsed) v fun _ v' => v.Serves bank n v' := by
  induction n generalizing v elapsed with
  | zero => exact .pure (.refl v bank)
  | succ n ih =>
      refine (request_serves access bank row (time + elapsed) v).bind ?_
      intro latency v₁ first
      refine (ih (elapsed + latency) v₁).mono ?_
      intro _ v₂ rest
      exact Nat.add_comm 1 n ▸ first.trans rest

/-- The vault counts as many requests as its banks count accesses. -/
def Agrees (v : Vault) : Prop := v.requests = v.accesses

theorem Serves.agrees (h : v.Serves bank n v') (agrees : v.Agrees) : v'.Agrees := by
  calc
    v'.requests = v.requests + n := h.requests
    _ = v.accesses + n := by rw [agrees]
    _ = v'.accesses := h.total.symm

end Vault

/-! ## Stacks -/

namespace Stack

variable {s s' : Stack} {p : BankPlace} {n : Nat}

/-- Column accesses of all banks of all vaults. -/
def accesses (s : Stack) : Nat := (s.vaults.toList.map Vault.accesses).sum

/-- The column accesses of a bank. -/
def accessesOf? (s : Stack) (p : BankPlace) : Option Nat := (s.bank? p).map Bank.accesses

/-- Every vault counts as many requests as its banks count accesses. -/
def Agrees (s : Stack) : Prop := ∀ (i : Nat) (v : Vault), s.vaults[i]? = some v → v.Agrees

/-- The stack has served `n` more requests, all of one bank. -/
structure Serves (s : Stack) (p : BankPlace) (n : Nat) (s' : Stack) : Prop where
  banks : ∀ q, s'.accessesOf? q =
    if q = p then (s.accessesOf? p).map (· + n) else s.accessesOf? q
  total : s'.accesses = s.accesses + n
  agrees : s.Agrees → s'.Agrees

theorem accessesOf?_eq (s : Stack) (p : BankPlace) :
    s.accessesOf? p = s.vaults[p.vault]?.bind (·.accessesOf? p.bank) := by
  unfold accessesOf? bank? vault?
  cases s.vaults[p.vault]? <;> rfl

theorem Serves.of_vault {v v' : Vault} (found : s.vaults[p.vault]? = some v)
    (serves : v.Serves p.bank n v') : s.Serves p n (s.withVault p.vault v') := by
  have inside := (Array.getElem?_eq_some_iff.1 found).1
  refine ⟨?_, sum_map_setIfInBounds Vault.accesses found serves.total, ?_⟩
  · intro q
    simp only [accessesOf?_eq, withVault, Array.getElem?_setIfInBounds, inside, if_true]
    -- A place differs from `p` in its vault, or in its bank within the vault.
    by_cases vault : p.vault = q.vault
    · rw [if_pos vault, ← vault, found, Option.bind_some, Option.bind_some, Option.bind_some,
        serves.banks]
      by_cases bank : q.bank = p.bank
      · have same : q = p := by
          cases p
          cases q
          simp_all
        rw [if_pos bank, if_pos same]
      · have other : q ≠ p := fun same => bank (same ▸ rfl)
        rw [if_neg bank, if_neg other]
    · have other : q ≠ p := fun same => vault (same ▸ rfl)
      rw [if_neg vault, if_neg other]
  · intro agrees
    exact forall_setIfInBounds agrees (serves.agrees (agrees p.vault v found))

/-- A step on a vault that is there. -/
theorem onVault_serves {α : Type} {step : VaultStep α}
    (h : ∀ v : Vault, Yields step v fun _ v' => v.Serves p.bank n v') (s : Stack) :
    Yields (onVault p.vault step) s fun _ s' => s.Serves p n s' := by
  intro a s' done
  unfold onVault at done
  split at done
  · cases done
  · rename_i v found
    split at done
    · rename_i run
      cases done
      exact .of_vault found (h v _ _ run)
    · cases done

/-- A transfer that is served adds its requests to the bank of its row. -/
theorem transfer_serves (access : Access) (bytes : Nat) (l : Location) (time : Time) (s : Stack) :
    Yields (transfer access bytes l time) s fun done s' => s.Serves l.place done.requests s' := by
  refine .get_bind ?_
  have served := onVault_serves (p := l.place)
    (Vault.requestMany_serves access l.bank l.row time (s.requestsFor bytes) .zero) s
  refine served.bind ?_
  exact fun _ _ serves => .pure serves

/-- A mark is no request. -/
theorem setHot_serves (p : BankPlace) (hot : Bool) (s : Stack) :
    Yields (setHot p hot) s fun _ s' => s.Serves p 0 s' := by
  refine onVault_serves (fun v => ?_) s
  have marked : ∀ b : Bank, Yields (modify (·.setHot hot) : BankStep PUnit) b
      fun _ b' => b.Counts 0 b' := by
    intro b
    refine .modify ?_
    unfold Bank.setHot
    split <;> rfl
  refine (Vault.onBank_yields marked p.bank v).mono ?_
  rintro _ _ ⟨b, b', found, counts, rfl⟩
  exact Vault.Serves.of_bank found counts

/-! ### Stacks that have counted nothing -/

/-- No bank has counted an access, and no vault a request. -/
structure Idle (s : Stack) : Prop where
  banks : ∀ (i : Nat) (v : Vault), s.vaults[i]? = some v →
    ∀ (bank : Nat) (b : Bank), v.banks[bank]? = some b → b.accesses = 0
  vaults : ∀ (i : Nat) (v : Vault), s.vaults[i]? = some v → v.requests = 0

theorem Idle.vault_accesses (h : s.Idle) {i : Nat} {v : Vault} (found : s.vaults[i]? = some v) :
    v.accesses = 0 := by
  refine sum_map_eq_zero fun b hb => ?_
  rcases List.mem_iff_getElem?.1 hb with ⟨bank, hbank⟩
  rw [Array.getElem?_toList] at hbank
  exact h.banks i v found bank b hbank

theorem Idle.accesses (h : s.Idle) : s.accesses = 0 := by
  refine sum_map_eq_zero fun v hv => ?_
  rcases List.mem_iff_getElem?.1 hv with ⟨i, hi⟩
  rw [Array.getElem?_toList] at hi
  exact h.vault_accesses hi

theorem Idle.agrees (h : s.Idle) : s.Agrees :=
  fun i v found => (h.vaults i v found).trans (h.vault_accesses found).symm

theorem Idle.accessesOf? (h : s.Idle) {b : Bank} (found : s.bank? p = some b) :
    s.accessesOf? p = some 0 := by
  rw [Stack.accessesOf?, found]
  unfold bank? vault? at found
  cases hv : s.vaults[p.vault]? with
  | none =>
      rw [hv] at found
      cases found
  | some v =>
      rw [hv] at found
      exact congrArg some (h.banks p.vault v hv p.bank b found)

theorem resetActivity_idle (s : Stack) : s.resetActivity.Idle := by
  refine ⟨?_, ?_⟩
  · intro i v hv bank b hb
    simp only [resetActivity, Array.getElem?_map, Option.map_eq_some_iff] at hv
    rcases hv with ⟨old, _, rfl⟩
    simp only [Vault.resetActivity, Vault.mapBanks, Array.getElem?_map,
      Option.map_eq_some_iff] at hb
    rcases hb with ⟨before, _, rfl⟩
    rfl
  · intro i v hv
    simp only [resetActivity, Array.getElem?_map, Option.map_eq_some_iff] at hv
    rcases hv with ⟨old, _, rfl⟩
    rfl

theorem ofSettings_idle (s : StackSettings) : (ofSettings s).Idle := by
  have fresh : ∀ (i : Nat) (v : Vault), (ofSettings s).vaults[i]? = some v →
      v.requests = 0 ∧ ∀ (bank : Nat) (b : Bank), v.banks[bank]? = some b → b.accesses = 0 := by
    intro i v hv
    simp only [ofSettings, Array.getElem?_map, Option.map_eq_some_iff] at hv
    rcases hv with ⟨id, _, rfl⟩
    -- An interval of refreshes is installed on banks that have done nothing.
    cases s.refresh <;> refine ⟨rfl, ?_⟩ <;> intro bank b hb
    · simp only [Bool.false_eq_true, if_false, Vault.ofSizes, Array.getElem?_replicate] at hb
      split at hb
      · cases hb
        rfl
      · cases hb
    · simp only [if_true, Vault.setRefreshInterval, Vault.mapBanks, Vault.ofSizes,
        Array.getElem?_map, Array.getElem?_replicate, Option.map_eq_some_iff] at hb
      rcases hb with ⟨before, hbefore, rfl⟩
      split at hbefore
      · cases hbefore
        rfl
      · cases hbefore
  exact ⟨fun i v hv => (fresh i v hv).2, fun i v hv => (fresh i v hv).1⟩

/-! ### Banks that are there -/

@[simp] theorem bank?_resetActivity (s : Stack) (p : BankPlace) :
    s.resetActivity.bank? p = (s.bank? p).map Bank.resetActivity := by
  unfold bank? vault? resetActivity
  rw [Array.getElem?_map]
  cases s.vaults[p.vault]? with
  | none => rfl
  | some v => exact Array.getElem?_map

/-- A stack has the banks it is said to have, and perhaps more: counts of banks are cut to a
word. -/
theorem ofSettings_bank? {s : StackSettings} (held : (Geometry.ofSettings s).holds p = true) :
    ∃ b, (ofSettings s).bank? p = some b := by
  rcases Geometry.holds_iff.1 held with ⟨vault_lt, bank_lt⟩
  have vault_lt : p.vault < s.vaults.toNat := vault_lt
  have inside : p.bank < s.vaultSize.toNat / s.bankSize.toNat :=
    Nat.lt_of_lt_of_le bank_lt (Nat.mod_le _ _)
  have fresh : ∃ v, (ofSettings s).vaults[p.vault]? = some v ∧ ∃ b, v.banks[p.bank]? = some b := by
    simp only [ofSettings, Array.getElem?_map, Array.getElem?_range, vault_lt, if_true,
      Option.map_some]
    refine ⟨_, rfl, ?_⟩
    cases s.refresh <;> simp [Vault.setRefreshInterval, Vault.mapBanks, Vault.ofSizes, inside]
  rcases fresh with ⟨v, hv, b, hb⟩
  exact ⟨b, by simp only [bank?, vault?, hv]; exact hb⟩

end Stack

end StackedCache
