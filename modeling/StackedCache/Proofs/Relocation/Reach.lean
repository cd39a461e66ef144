import StackedCache.Proofs.Relocation.Change

/-!
# Runs of the relocation layer

An epoch goes through its turns one after the other; `stage` is the layer after some of them.
Between two stages there is one change, so an epoch keeps the layer sound, and so does every other
operation: `run_sound`.
-/

namespace StackedCache

open Relation (ReflTransGen)

/-! ## Epochs turn by turn -/

namespace Epoch

variable {e : Epoch} {turns : List Turn}

theorem takeAll_changes (h : e.layer.Sound) (within : ∀ t ∈ turns, t.Within e.layer.geometry) :
    ReflTransGen Layer.Change e.layer (e.takeAll turns).layer := by
  induction turns generalizing e with
  | nil => exact .refl
  | cons t turns ih =>
      have first := take_change h (within t List.mem_cons_self)
      refine .head first (ih (first.sound h) fun u hu => ?_)
      -- The turns were laid out on the first layer, and its geometry is never changed.
      rw [first.frame.geometry]
      exact within u (List.mem_cons_of_mem _ hu)

theorem takeAll_append (e : Epoch) (first second : List Turn) :
    e.takeAll (first ++ second) = (e.takeAll first).takeAll second :=
  List.foldl_append

/-- The passes of a policy take its turns in order. -/
theorem apply_eq (h : e.layer.Sound) (s : RelocationSettings) :
    e.apply s = e.takeAll (s.turns e.layer.geometry) := by
  rw [apply_eq_passes, RelocationSettings.turns]
  generalize s.passes = passes
  induction passes generalizing e with
  | nil => rfl
  | cons p passes ih =>
      -- A later pass lists its turns when it starts, and would have listed the same before.
      have changes : ReflTransGen Layer.Change e.layer (e.pass p).layer :=
        takeAll_changes h fun t ht => Pass.turns_within ht
      have same : (e.pass p).layer.geometry = e.layer.geometry :=
        (Layer.changes_frame changes).geometry
      have rest := ih (e := e.pass p) (h.changes changes)
      rw [same] at rest
      rw [List.foldl_cons, rest, List.flatMap_cons, takeAll_append]
      rfl

end Epoch

namespace Layer

variable {l l' : Layer} {n : Nat}

/-- The turns of the next epoch, none if relocation is switched off. -/
def turns (l : Layer) : List Turn :=
  if l.settings.enabled then l.settings.turns l.geometry else []

/-- The layer after the first `n` turns of its next epoch. -/
def stage (l : Layer) (n : Nat) : Layer := (l.nextEpoch.takeAll (l.turns.take n)).layer

theorem turns_within {t : Turn} (h : t ∈ l.turns) : t.Within l.geometry := by
  unfold turns at h
  split at h
  · exact RelocationSettings.turns_within h
  · cases h

theorem nextEpoch_sound (h : l.Sound) : l.nextEpoch.layer.Sound :=
  ⟨h.mapping, h.banks_size, h.vaults_size, h.ids⟩

theorem stage_changes (h : l.Sound) (n : Nat) :
    ReflTransGen Change l.nextEpoch.layer (l.stage n) :=
  Epoch.takeAll_changes (nextEpoch_sound h) fun _ ht => turns_within (List.mem_of_mem_take ht)

theorem stage_sound (h : l.Sound) (n : Nat) : (l.stage n).Sound :=
  (nextEpoch_sound h).changes (stage_changes h n)

/-- The turns were laid out before the epoch, and fit every stage of it. -/
theorem stage_within {t : Turn} (h : l.Sound) (next : l.turns[n]? = some t) :
    t.Within (l.stage n).geometry := by
  have within := turns_within (List.mem_of_getElem? next)
  have geometry : (l.stage n).geometry = l.geometry :=
    (changes_frame (stage_changes h n)).geometry
  rwa [geometry]

/-- A stage is followed by the next turn. -/
theorem stage_succ {t : Turn} (next : l.turns[n]? = some t) :
    ∃ e : Epoch, e.layer = l.stage n ∧ l.stage (n + 1) = (e.take t).layer := by
  rcases List.getElem?_eq_some_iff.1 next with ⟨hn, rfl⟩
  refine ⟨l.nextEpoch.takeAll (l.turns.take n), rfl, ?_⟩
  unfold stage
  rw [List.take_succ_eq_append_getElem hn, Epoch.takeAll_append]
  rfl

/-- Between two stages there is one change, and none once all turns are taken. -/
theorem stage_change (h : l.Sound) (n : Nat) : Change (l.stage n) (l.stage (n + 1)) := by
  by_cases hn : n < l.turns.length
  · rcases stage_succ (List.getElem?_eq_getElem hn) with ⟨e, here, next⟩
    have frame := changes_frame (stage_changes h n)
    have within := turns_within (List.getElem_mem hn)
    rw [next, ← here]
    apply Epoch.take_change (here ▸ stage_sound h n)
    rw [here, frame.geometry]
    exact within
  · have next : l.stage (n + 1) = l.stage n := by
      unfold stage
      rw [List.take_of_length_le (by omega), List.take_of_length_le (by omega)]
    rw [next]
    exact .stay _

/-- An epoch ends with its last stage, apart from the count of failures. -/
theorem runEpoch_layer (h : l.Sound) :
    ∃ c, l.runEpoch.2 = (l.stage l.turns.length).withCounts c := by
  unfold runEpoch stage turns
  cases l.settings.enabled with
  | false => exact ⟨_, rfl⟩
  | true =>
      simp only [if_true, List.take_length, Epoch.apply_eq (nextEpoch_sound h)]
      exact ⟨_, rfl⟩

theorem runEpoch_changes (h : l.Sound) :
    ReflTransGen Change l.nextEpoch.layer l.runEpoch.2 := by
  rcases runEpoch_layer h with ⟨c, hc⟩
  rw [hc]
  exact (stage_changes h _).tail (.rows (.single (.counts c)))

theorem runEpoch_sound (h : l.Sound) : l.runEpoch.2.Sound :=
  (nextEpoch_sound h).changes (runEpoch_changes h)

/-! ## Operations -/

/-- An operation of the layer.  Operations on banks outside the stack are refused. -/
inductive Operation where
  | setTemperature (p : BankPlace) (t : Celsius)
  | recordAccess (row : Location) (requests : Nat)
  | runEpoch
  | settle
  | resetCounts

/-- Performs an operation; a refused one leaves the layer alone. -/
def perform (l : Layer) : Operation → Layer
  | .setTemperature p t =>
      match l.setTemperature p t with
      | .ok l' => l'
      | .error _ => l
  | .recordAccess row requests =>
      match l.recordAccess row requests with
      | .ok l' => l'
      | .error _ => l
  | .runEpoch => l.runEpoch.2
  | .settle => l.settle
  | .resetCounts => l.resetCounts

/-- Performs operations in order. -/
def run (l : Layer) (ops : List Operation) : Layer := ops.foldl perform l

theorem run_append (l : Layer) (first second : List Operation) :
    l.run (first ++ second) = (l.run first).run second :=
  List.foldl_append

theorem perform_setTemperature (l : Layer) (p : BankPlace) (t : Celsius) :
    ∃ ledger, l.perform (.setTemperature p t) = { l with ledger := ledger } := by
  simp only [perform, setTemperature, bankId?]
  cases l.geometry.holds p with
  | false => exact ⟨l.ledger, rfl⟩
  | true => exact ⟨_, rfl⟩

/-- Recorded requests change the ledger and the counts of one bank and its vault. -/
theorem perform_recordAccess (l : Layer) (row : Location) (requests : Nat) :
    l.perform (.recordAccess row requests) = l ∨
      ∃ ledger, l.perform (.recordAccess row requests) =
        ({ l with ledger := ledger }.modifyBank (l.geometry.bankId row.place)
          (·.recordAccess row.row requests)).modifyVault row.vault
            (·.recordAccess row.bank requests) := by
  simp only [perform, recordAccess, bankId?]
  cases l.geometry.holds row.place with
  | false => exact .inl rfl
  | true => exact .inr ⟨_, rfl⟩

theorem perform_of_recorded {row : Location} {n : Nat} {l' : Layer}
    (recorded : l.recordAccess row n = .ok l') : l.perform (.recordAccess row n) = l' := by
  simp only [perform, recorded]

theorem Sound.mapEntries (h : l.Sound) {f : Entry → Entry} {g : Entry → Entry}
    (hf : ∀ entry, (f entry).id = entry.id) :
    Sound { l with banks := l.banks.map f, vaults := l.vaults.map g } where
  mapping := h.mapping
  banks_size := Array.size_map.trans h.banks_size
  vaults_size := Array.size_map.trans h.vaults_size
  ids := by
    intro id entry hid
    simp only [bank?, Array.getElem?_map, Option.map_eq_some_iff] at hid
    rcases hid with ⟨old, hold, rfl⟩
    exact (hf old).trans (h.ids id old hold)

/-- Every operation keeps the layer sound. -/
theorem perform_sound (h : l.Sound) (op : Operation) : (l.perform op).Sound := by
  cases op with
  | setTemperature p t =>
      rcases perform_setTemperature l p t with ⟨ledger, stored⟩
      rw [stored]
      exact ⟨h.mapping, h.banks_size, h.vaults_size, h.ids⟩
  | recordAccess row requests =>
      rcases perform_recordAccess l row requests with refused | ⟨ledger, recorded⟩
      · rwa [refused]
      · have noted : Sound { l with ledger := ledger } :=
          ⟨h.mapping, h.banks_size, h.vaults_size, h.ids⟩
        rw [recorded]
        exact noted.modifyBank.modifyVault
  | runEpoch => exact runEpoch_sound h
  | settle => exact h.mapEntries fun _ => rfl
  | resetCounts =>
      have reset : Sound { l with counts := {}, ledger := l.ledger.resetCounts } :=
        ⟨h.mapping, h.banks_size, h.vaults_size, h.ids⟩
      exact reset.mapEntries fun _ => rfl

theorem perform_geometry (h : l.Sound) (op : Operation) : (l.perform op).geometry = l.geometry := by
  cases op with
  | setTemperature p t =>
      rcases perform_setTemperature l p t with ⟨ledger, stored⟩
      rw [stored]
      rfl
  | recordAccess row requests =>
      rcases perform_recordAccess l row requests with refused | ⟨ledger, recorded⟩
      · rw [refused]
      · rw [recorded]
        rfl
  | runEpoch => exact (changes_frame (runEpoch_changes h)).geometry
  | settle => rfl
  | resetCounts => rfl

theorem run_sound (h : l.Sound) (ops : List Operation) : (l.run ops).Sound := by
  induction ops generalizing l with
  | nil => exact h
  | cons op ops ih => exact ih (perform_sound h op)

theorem run_geometry (h : l.Sound) (ops : List Operation) : (l.run ops).geometry = l.geometry := by
  induction ops generalizing l with
  | nil => rfl
  | cons op ops ih => exact (ih (perform_sound h op)).trans (perform_geometry h op)

end Layer

end StackedCache
