import StackedCache.Proofs.Step
import StackedCache.Stack.Basic

/-!
# Stacks that differ in what they have counted

Two banks are twins if they are the same once their activities are forgotten, and so are vaults and
stacks.  Commands, requests and transfers take the same time on both of two twins, or fail on both
in the same way, and leave them twins: nothing a stack counts decides what it does.
-/

namespace StackedCache

/-! ## Arrays -/

section Arrays

variable {α : Type} {xs ys : Array α} {f : α → α}

/-- Arrays that agree in the images of their elements do so in each place. -/
theorem getElem?_of_map_eq (h : xs.map f = ys.map f) (i : Nat) :
    xs[i]?.map f = ys[i]?.map f := by
  rw [← Array.getElem?_map, ← Array.getElem?_map, h]

theorem size_of_map_eq (h : xs.map f = ys.map f) : xs.size = ys.size := by
  have sizes := congrArg Array.size h
  rwa [Array.size_map, Array.size_map] at sizes

/-- Arrays that agree in some images do so in all that depend on these. -/
theorem map_eq_of_map_eq {β : Type} {g g' : α → β} (h : xs.map f = ys.map f)
    (same : ∀ x y, f x = f y → g x = g' y) : xs.map g = ys.map g' := by
  apply Array.ext_getElem?
  intro i
  have place := getElem?_of_map_eq h i
  rw [Array.getElem?_map, Array.getElem?_map]
  generalize xs[i]? = x, ys[i]? = y at place ⊢
  cases x with
  | none => rw [Option.map_eq_none_iff.1 place.symm]; rfl
  | some x =>
      rcases Option.map_eq_some_iff.1 place.symm with ⟨y, rfl, hy⟩
      exact congrArg some (same x y hy.symm)

theorem map_setIfInBounds_eq (h : xs.map f = ys.map f) {x y : α} (same : f x = f y) (i : Nat) :
    (xs.setIfInBounds i x).map f = (ys.setIfInBounds i y).map f := by
  rw [Array.map_setIfInBounds, Array.map_setIfInBounds, h, same]

end Arrays

/-! ## Banks -/

namespace Bank

variable {b b' : Bank} {row : Nat} {time : Time}

/-- The banks differ in their activities only. -/
def Twin (b b' : Bank) : Prop := b.resetActivity = b'.resetActivity

theorem Twin.exists_activity (h : b.Twin b') : ∃ a, b' = { b with activity := a } := by
  refine ⟨b'.activity, ?_⟩
  have restored : ∀ b : Bank, b = { b.resetActivity with activity := b.activity } := fun _ => rfl
  rw [restored b', ← h]
  rfl

theorem get_bind_agrees {β : Type} {f : Bank → BankStep β} {R : β → β → Prop}
    (same : ∀ b a, f { b with activity := a } = f b) (h : ∀ b, Agrees Twin (f b) (f b) R) :
    Agrees Twin (get >>= f) (get >>= f) R := by
  refine .get_bind ?_ h
  intro b b' twin
  rcases twin.exists_activity with ⟨a, rfl⟩
  exact same b a

theorem issue_agrees (command : Command) (row : Nat) (time : Time) :
    Agrees Twin (issue command row time) (issue command row time) Eq := by
  intro b b' twin
  rcases twin.exists_activity with ⟨a, rfl⟩
  have permit : permit { b with activity := a } command row = b.permit command row := rfl
  rw [issue_apply, issue_apply, permit]
  cases b.permit command row with
  | ok latency => exact .ok rfl rfl
  | error cause => exact .error twin

theorem closeRow_agrees (time : Time) : Agrees Twin (closeRow time) (closeRow time) Eq := by
  refine get_bind_agrees (fun _ _ => rfl) fun b => ?_
  cases b.openRow with
  | none => exact .pure rfl
  | some row => exact issue_agrees .pre row time

theorem refresh_agrees (time : Time) : Agrees Twin (refresh time) (refresh time) Eq := by
  refine (closeRow_agrees time).bind_eq fun closing => ?_
  refine (issue_agrees .refsb 0 _).bind_eq fun refreshing => ?_
  refine Agrees.bind_eq (.modify ?_) fun _ => .pure rfl
  intro b b' twin
  rcases twin.exists_activity with ⟨a, rfl⟩
  rfl

theorem bring_agrees (row : Nat) (time : Time) :
    Agrees Twin (bring row time) (bring row time) Eq := by
  refine get_bind_agrees (fun _ _ => rfl) fun b => ?_
  cases b.openRow with
  | none => exact issue_agrees .act row time
  | some current =>
      refine .ite (.pure rfl) ?_
      refine (issue_agrees .pre current time).bind_eq fun closing => ?_
      exact (issue_agrees .act row _).bind_eq fun opening => .pure rfl

theorem serve_agrees (autoPrecharge : Bool) (access : Access) (row : Nat) (time : Time) :
    Agrees Twin (serve autoPrecharge access row time) (serve autoPrecharge access row time) Eq := by
  refine get_bind_agrees (fun _ _ => rfl) fun b => ?_
  have refreshed : Agrees Twin (if b.refreshDue time then refresh time else Pure.pure .zero)
      (if b.refreshDue time then refresh time else Pure.pure .zero) Eq :=
    .ite (refresh_agrees time) (.pure rfl)
  refine .ite_bind_eq refreshed fun refreshing => ?_
  refine (bring_agrees row _).bind_eq fun opening => ?_
  refine (issue_agrees _ row _).bind_eq fun column => ?_
  exact .ite ((issue_agrees .pre row _).bind_eq fun closing => .pure rfl) (.pure rfl)

theorem Twin.setHot (h : b.Twin b') (hot : Bool) : (b.setHot hot).Twin (b'.setHot hot) := by
  rcases h.exists_activity with ⟨a, rfl⟩
  unfold Bank.setHot
  by_cases same : b.hot = hot
  · rw [if_pos same, if_pos same]
    exact h
  · rw [if_neg same, if_neg same]
    rfl

end Bank

/-! ## Vaults -/

namespace Vault

variable {v v' : Vault} {α : Type} {R : α → α → Prop}

/-- The vaults differ in what they and their banks have counted only. -/
def Twin (v v' : Vault) : Prop := v.resetActivity = v'.resetActivity

theorem twin_iff : v.Twin v' ↔ v.id = v'.id ∧
    v.banks.map Bank.resetActivity = v'.banks.map Bank.resetActivity ∧
    v.autoPrecharge = v'.autoPrecharge := by
  simp only [Twin, resetActivity, mapBanks, mk.injEq, and_true]

theorem Twin.withBank {b b' : Bank} (h : v.Twin v') (hb : b.Twin b') (bank : Nat) :
    (v.withBank bank b).Twin (v'.withBank bank b') := by
  rcases twin_iff.1 h with ⟨id, banks, autoPrecharge⟩
  exact twin_iff.2 ⟨id, map_setIfInBounds_eq banks hb bank, autoPrecharge⟩

/-- A step that agrees on banks agrees on the same bank of two vaults. -/
theorem onBank_agrees {step : BankStep α} (h : Agrees Bank.Twin step step R) (bank : Nat) :
    Agrees Twin (onBank bank step) (onBank bank step) R := by
  intro v v' twin
  rcases twin_iff.1 twin with ⟨_, banks, _⟩
  have found := getElem?_of_map_eq banks bank
  have size := size_of_map_eq banks
  unfold onBank
  cases hb : v.banks[bank]? with
  | none =>
      rw [hb] at found
      rw [Option.map_eq_none_iff.1 found.symm, bankCount, size]
      exact .error twin
  | some b =>
      rw [hb, Option.map_some] at found
      rcases Option.map_eq_some_iff.1 found.symm with ⟨b', hb', same⟩
      have ends := h b b' same.symm
      simp only [hb']
      generalize step b = r, step b' = r' at ends ⊢
      cases ends with
      | ok result state => exact .ok result (twin.withBank state bank)
      | error state => exact .error (twin.withBank state bank)

theorem request_agrees (access : Access) (bank row : Nat) (time : Time) :
    Agrees Twin (request access bank row time) (request access bank row time) Eq := by
  refine .get_bind ?_ fun v => ?_
  · intro v v' twin
    rw [(twin_iff.1 twin).2.2]
  · refine (onBank_agrees (Bank.serve_agrees _ access row time) bank).bind_eq fun latency => ?_
    refine Agrees.bind_eq (.modify ?_) fun _ => .pure rfl
    exact fun _ _ twin => twin_iff.2 (twin_iff.1 twin)

theorem requestMany_agrees (access : Access) (bank row : Nat) (time : Time) (n : Nat)
    (elapsed : Time) :
    Agrees Twin (requestMany access bank row time n elapsed)
      (requestMany access bank row time n elapsed) Eq := by
  induction n generalizing elapsed with
  | zero => exact .pure rfl
  | succ n ih => exact (request_agrees access bank row _).bind_eq fun latency => ih _

end Vault

/-! ## Stacks -/

namespace Stack

variable {s s' : Stack} {α : Type} {R : α → α → Prop}

/-- The stacks differ in what their vaults have counted only. -/
def Twin (s s' : Stack) : Prop := s.resetActivity = s'.resetActivity

theorem twin_iff : s.Twin s' ↔ s.geometry = s'.geometry ∧
    s.vaults.map Vault.resetActivity = s'.vaults.map Vault.resetActivity ∧
    s.bandwidth = s'.bandwidth ∧ s.requestBytes = s'.requestBytes ∧ s.rowSize = s'.rowSize := by
  simp only [Twin, resetActivity, mk.injEq]

theorem Twin.withVault {v v' : Vault} (h : s.Twin s') (hv : v.Twin v') (vault : Nat) :
    (s.withVault vault v).Twin (s'.withVault vault v') := by
  rcases twin_iff.1 h with ⟨geometry, vaults, rest⟩
  exact twin_iff.2 ⟨geometry, map_setIfInBounds_eq vaults hv vault, rest⟩

theorem onVault_agrees {step : VaultStep α} (h : Agrees Vault.Twin step step R) (vault : Nat) :
    Agrees Twin (onVault vault step) (onVault vault step) R := by
  intro s s' twin
  rcases twin_iff.1 twin with ⟨geometry, vaults, _⟩
  have found := getElem?_of_map_eq vaults vault
  unfold onVault
  cases hv : s.vaults[vault]? with
  | none =>
      rw [hv] at found
      rw [Option.map_eq_none_iff.1 found.symm, geometry]
      exact .error twin
  | some v =>
      rw [hv, Option.map_some] at found
      rcases Option.map_eq_some_iff.1 found.symm with ⟨v', hv', same⟩
      have ends := h v v' same.symm
      simp only [hv']
      generalize step v = r, step v' = r' at ends ⊢
      cases ends with
      | ok result state => exact .ok result (twin.withVault state vault)
      | error state => exact .error (twin.withVault state vault)

theorem transfer_agrees (access : Access) (bytes : Nat) (l : Location) (time : Time) :
    Agrees Twin (transfer access bytes l time) (transfer access bytes l time) Eq := by
  refine .get_bind ?_ fun s => ?_
  · intro s s' twin
    rcases twin_iff.1 twin with ⟨_, _, bandwidth, requestBytes, _⟩
    simp only [requestsFor, bandwidth, requestBytes]
  · refine (onVault_agrees (Vault.requestMany_agrees access l.bank l.row time _ _) _).bind_eq ?_
    exact fun served => .pure rfl

theorem setHot_agrees (p : BankPlace) (hot : Bool) :
    Agrees Twin (setHot p hot) (setHot p hot) Eq := by
  refine onVault_agrees (Vault.onBank_agrees (.modify ?_) p.bank) p.vault
  exact fun _ _ twin => twin.setHot hot

theorem twin_resetActivity (s : Stack) : s.Twin s.resetActivity := by
  have twice : Vault.resetActivity ∘ Vault.resetActivity = Vault.resetActivity := by
    funext v
    simp only [Function.comp_apply, Vault.resetActivity, Vault.mapBanks, Array.map_map]
    rfl
  simp only [Twin, resetActivity, Array.map_map, twice]

end Stack

end StackedCache
