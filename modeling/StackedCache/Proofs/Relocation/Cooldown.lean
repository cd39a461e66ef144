import StackedCache.Proofs.Relocation.Partners

/-!
# Cooldowns

Entities are chosen for a move in several places, as the one that is hot, that has cooled down, that
owns a target or that sits in another one's place.  All of them ask for the cooldown and mark both
sides, so marks keep their distance and no entity moves twice within a cooldown.
-/

namespace StackedCache

/-! ## Marks that keep their distance -/

/-- A mark stays, or it is set to an epoch that is more than the cooldown later. -/
def Rests (cooldown : Nat) (before after : Option Nat) : Prop :=
  after = before ∨ ∃ now, after = some now ∧ ∀ last, before = some last → last + cooldown < now

namespace Rests

variable {c : Nat} {o o' o'' : Option Nat}

theorem refl (c : Nat) (o : Option Nat) : Rests c o o := .inl rfl

theorem trans (h : Rests c o o') (h' : Rests c o' o'') : Rests c o o'' := by
  rcases h with rfl | ⟨now, rfl, later⟩
  · exact h'
  · rcases h' with rfl | ⟨next, rfl, distance⟩
    · exact .inr ⟨now, rfl, later⟩
    · refine .inr ⟨next, rfl, fun last mark => ?_⟩
      have first := later last mark
      have second := distance now rfl
      omega

/-- A mark that is set never vanishes and never goes back. -/
theorem exists_le {last : Nat} (h : Rests c (some last) o) : ∃ now, o = some now ∧ last ≤ now := by
  rcases h with rfl | ⟨now, rfl, later⟩
  · exact ⟨last, rfl, Nat.le_refl last⟩
  · have distance := later last rfl
    exact ⟨now, rfl, by omega⟩

end Rests

namespace Layer

variable {s : RelocationSettings} {g : Geometry} {l l' l'' : Layer} {n m : Nat} {x y z : Entity}

/-- All marks have stayed or have kept their distance. -/
def AllRest (c : Nat) (l l' : Layer) : Prop := ∀ x, Rests c (l.mark x) (l'.mark x)

theorem AllRest.refl (c : Nat) (l : Layer) : AllRest c l l := fun _ => .refl c _

theorem AllRest.trans {c : Nat} (h : AllRest c l l') (h' : AllRest c l' l'') : AllRest c l l'' :=
  fun x => (h x).trans (h' x)

theorem AllRest.of_eq {c : Nat} (same : l'.mark = l.mark) : AllRest c l l' :=
  fun x => .inl (congrFun same x)

/-- The sides of a move are out of their cooldown, and are marked. -/
theorem Pairing.allRest (h : l.Pairing x y l') : AllRest l.settings.cooldownEpochs.toNat l l' := by
  intro z
  by_cases side : z = x ∨ z = y
  · exact .inr ⟨l.epoch, h.mark side, fun last => lt_of_not_resting (h.not_resting side)⟩
  · left
    rw [h.marked, if_neg side]

end Layer

/-! ## Moves of an epoch -/

namespace Layer

variable {s : RelocationSettings} {g : Geometry} {l : Layer} {n m : Nat} {t : Turn}
variable {x y x' y' z : Entity}

/-- The next epoch after its first `n` turns. -/
def epochAt (l : Layer) (n : Nat) : Epoch := l.nextEpoch.takeAll (l.turns.take n)

/-- Two entities move in a turn of the next epoch. -/
def Move (l : Layer) (n : Nat) (x y : Entity) : Prop :=
  ∃ t, l.turns[n]? = some t ∧ Epoch.Move (l.epochAt n) t (l.epochAt (n + 1)) x y

/-- An entity is a side of the move of a turn. -/
def TakesPart (l : Layer) (n : Nat) (z : Entity) : Prop := ∃ x y, l.Move n x y ∧ (z = x ∨ z = y)

theorem epochAt_succ (next : l.turns[n]? = some t) : l.epochAt (n + 1) = (l.epochAt n).take t := by
  rcases List.getElem?_eq_some_iff.1 next with ⟨hn, rfl⟩
  unfold epochAt
  rw [List.take_succ_eq_append_getElem hn, Epoch.takeAll_append]
  rfl

theorem epochAt_end (past : l.turns[n]? = none) : l.epochAt (n + 1) = l.epochAt n := by
  have length := List.getElem?_eq_none_iff.1 past
  unfold epochAt
  rw [List.take_of_length_le (by omega), List.take_of_length_le length]

theorem stage_epoch (h : l.Sound) (n : Nat) : (l.stage n).epoch = l.epoch + 1 :=
  (changes_frame (stage_changes h n)).epoch

/-- A turn of an epoch makes one move or none. -/
theorem epochAt_move (h : l.Sound) (next : l.turns[n]? = some t) :
    Epoch.NoMove (l.epochAt n) t (l.epochAt (n + 1)) ∨
      ∃ x y, Epoch.OnlyMove (l.epochAt n) t (l.epochAt (n + 1)) x y := by
  rw [epochAt_succ next]
  exact Epoch.take_move (stage_sound h n) (stage_within h next)

theorem Move.pairing (move : l.Move n x y) (h : l.Sound) :
    (l.stage n).Pairing x y (l.stage (n + 1)) := by
  rcases move with ⟨t, next, move⟩
  rcases epochAt_move h next with still | ⟨_, _, only⟩
  · exact absurd move (still.none x y)
  · rcases only.only x y move with ⟨rfl, rfl⟩
    exact only.pairing

/-- A mark that changes in a turn is that of a side of a move. -/
theorem takesPart_of_mark (h : l.Sound)
    (changed : (l.stage (n + 1)).mark z ≠ (l.stage n).mark z) : l.TakesPart n z := by
  cases next : l.turns[n]? with
  | none => exact absurd (congrArg (fun e => e.layer.mark z) (epochAt_end next)) changed
  | some t =>
      rcases epochAt_move h next with still | ⟨x, y, only⟩
      · exact absurd (congrFun still.mark z) changed
      · exact ⟨x, y, ⟨t, next, only.move⟩, only.pairing.mark_ne.1 changed⟩

/-- An entity that changes place in a turn which concerns it is a side of a move. -/
theorem takesPart_of_placeOf (h : l.Sound) (next : l.turns[n]? = some t) (concerns : t.Concerns z)
    (changed : (l.stage (n + 1)).mapping.placeOf z ≠ (l.stage n).mapping.placeOf z) :
    l.TakesPart n z := by
  rcases epochAt_move h next with still | ⟨x, y, only⟩
  · exact absurd (congrFun still.places z) changed
  · refine ⟨x, y, ⟨t, next, only.move⟩, ?_⟩
    by_contra other
    rw [not_or] at other
    exact changed (only.others z concerns other.1 other.2)

/-! ## Moves in the report of an epoch -/

/-- Whatever a part of the report lists is so listed by a turn. -/
theorem report_keeps {α : Type} (part : Report → List α) {P : α → Prop}
    (start : part l.nextEpoch.report = [])
    (step : ∀ n t, l.turns[n]? = some t → ∀ a ∈ part (l.epochAt (n + 1)).report,
      a ∈ part (l.epochAt n).report ∨ P a) (n : Nat) :
    ∀ a ∈ part (l.epochAt n).report, P a := by
  induction n with
  | zero =>
      intro a mem
      rw [show part (l.epochAt 0).report = [] from start] at mem
      cases mem
  | succ n ih =>
      intro a mem
      cases next : l.turns[n]? with
      | none =>
          rw [epochAt_end next] at mem
          exact ih a mem
      | some t => exact (step n t next a mem).elim (ih a) id

theorem runEpoch_report (h : l.Sound) :
    l.runEpoch.1 = (l.epochAt l.turns.length).report := by
  unfold runEpoch epochAt turns
  cases l.settings.enabled with
  | false => rfl
  | true =>
      simp only [if_true, List.take_length, Epoch.apply_eq (nextEpoch_sound h)]
      rfl

theorem epochAt_explains (h : l.Sound) (next : l.turns[n]? = some t) :
    Report.Explains (l.epochAt n).layer.geometry (l.epochAt n).report
      (l.epochAt (n + 1)).report := by
  rw [epochAt_succ next]
  exact Epoch.take_explains (stage_sound h n) (stage_within h next)

/-- The moves that an epoch reports are moves of its turns. -/
structure Accounts (l : Layer) (r : Report) : Prop where
  bankSwaps : ∀ swap ∈ r.bankSwaps, ∃ n a b,
    swap = (l.geometry.bankAt a, l.geometry.bankAt b) ∧ l.Move n (.bank a) (.bank b)
  rowMigrations : ∀ migration ∈ r.rowMigrations, ∃ n a b,
    (migration.source, migration.target) = (l.geometry.bankAt a, l.geometry.bankAt b) ∧
      l.Move n (.bank a) (.bank b)
  vaultSwaps : ∀ swap ∈ r.vaultSwaps, ∃ n, l.Move n (.vault swap.1) (.vault swap.2)

theorem runEpoch_accounts (h : l.Sound) : l.Accounts l.runEpoch.1 := by
  have geometry : ∀ n, (l.epochAt n).layer.geometry = l.geometry := fun n =>
    (changes_frame (stage_changes h n)).geometry
  rw [runEpoch_report h]
  refine ⟨report_keeps (·.bankSwaps) rfl (fun n t next swap mem => ?_) _,
    report_keeps (·.rowMigrations) rfl (fun n t next migration mem => ?_) _,
    report_keeps (·.vaultSwaps) rfl (fun n t next swap mem => ?_) _⟩
  · refine ((epochAt_explains h next).bankSwaps swap mem).imp_right ?_
    rintro ⟨a, b, places, told⟩
    exact ⟨n, a, b, geometry n ▸ places, t, next, .reported told⟩
  · refine ((epochAt_explains h next).rowMigrations migration mem).imp_right ?_
    rintro ⟨a, b, places, told⟩
    exact ⟨n, a, b, geometry n ▸ places, t, next, .reported told⟩
  · refine ((epochAt_explains h next).vaultSwaps swap mem).imp_right ?_
    exact fun told => ⟨n, t, next, .reported told⟩

/-! ## Marks of a run -/

/-- The start of an epoch is no move. -/
theorem start_allRest (l : Layer) (c : Nat) : AllRest c l (l.stage 0) := .of_eq rfl

theorem stage_succ_allRest (h : l.Under s g) (n : Nat) :
    AllRest s.cooldownEpochs.toNat (l.stage n) (l.stage (n + 1)) := by
  cases next : l.turns[n]? with
  | none => exact .of_eq (congrArg (fun e => e.layer.mark) (epochAt_end next))
  | some t =>
      rcases epochAt_move h.sound next with still | ⟨x, y, only⟩
      · exact .of_eq still.mark
      · have rests := only.pairing.allRest
        rwa [show (l.epochAt n).layer.settings = s from (h.stage n).settings] at rests

theorem stage_allRest (h : l.Under s g) (le : n ≤ m) :
    AllRest s.cooldownEpochs.toNat (l.stage n) (l.stage m) := by
  induction le with
  | refl => exact .refl _ _
  | step _ ih => exact ih.trans (stage_succ_allRest h _)

/-- Marks keep their distance from any stage of an epoch to its end. -/
theorem runEpoch_allRest (h : l.Under s g) (n : Nat) :
    AllRest s.cooldownEpochs.toNat (l.stage n) l.runEpoch.2 := by
  rcases runEpoch_layer h.sound with ⟨c, ends⟩
  have counted : AllRest s.cooldownEpochs.toNat (l.stage l.turns.length) l.runEpoch.2 := by
    rw [ends]
    exact .of_eq rfl
  by_cases before : n ≤ l.turns.length
  · exact (stage_allRest h before).trans counted
  · -- After the last turn there is nothing left to take.
    have past : l.stage n = l.stage l.turns.length := by
      unfold stage
      rw [List.take_of_length_le (by omega), List.take_length]
    rwa [past]

theorem perform_allRest (h : l.Under s g) (op : Operation) :
    AllRest s.cooldownEpochs.toNat l (l.perform op) := by
  cases op with
  | setTemperature p t =>
      rcases perform_setTemperature l p t with ⟨ledger, stored⟩
      rw [stored]
      exact .of_eq rfl
  | recordAccess row requests =>
      rcases perform_recordAccess l row requests with refused | ⟨ledger, recorded⟩
      · rw [refused]
        exact .refl _ _
      · rw [recorded]
        have noted := mark_modifyBank { l with ledger := ledger } (l.geometry.bankId row.place)
          (·.recordAccess row.row requests)
        exact .of_eq ((mark_modifyVault _ _ _).trans noted)
  | runEpoch => exact (start_allRest l _).trans (runEpoch_allRest h 0)
  | settle => exact .of_eq (mark_mapEntries l Entry.settle Entry.settle)
  | resetCounts =>
      have mapped := mark_mapEntries { l with counts := {}, ledger := l.ledger.resetCounts }
        Entry.resetCounts Entry.resetCounts
      exact .of_eq mapped

theorem run_allRest (h : l.Under s g) (ops : List Operation) :
    AllRest s.cooldownEpochs.toNat l (l.run ops) := by
  induction ops generalizing l with
  | nil => exact .refl _ _
  | cons op ops ih => exact (perform_allRest h op).trans (ih (h.perform op))

/-! ## One move in a cooldown -/

theorem TakesPart.mark (part : l.TakesPart n z) (h : l.Sound) :
    (l.stage (n + 1)).mark z = some (l.epoch + 1) := by
  rcases part with ⟨x, y, move, side⟩
  rw [(move.pairing h).mark side, stage_epoch h]

theorem TakesPart.not_resting (part : l.TakesPart n z) (h : l.Sound) :
    (l.stage n).resting z = false := by
  rcases part with ⟨x, y, move, side⟩
  exact (move.pairing h).not_resting side

/-- An entity that was marked before it takes part in a move has waited for its cooldown. -/
theorem TakesPart.lt {l' : Layer} {last : Nat} (part : l'.TakesPart m z) (h : l'.Under s g)
    (mark : l.mark z = some last) (rests : AllRest s.cooldownEpochs.toNat l (l'.stage m)) :
    last + s.cooldownEpochs.toNat < l'.epoch + 1 := by
  have rested := rests z
  rw [mark] at rested
  rcases rested.exists_le with ⟨now, marked, le⟩
  have waited := lt_of_not_resting (part.not_resting h.sound) marked
  rw [stage_epoch h.sound, (h.stage m).settings] at waited
  omega

theorem TakesPart.not_before (first : l.TakesPart n z) (second : l.TakesPart m z)
    (h : l.Under s g) : ¬n < m := by
  intro before
  have waited := second.lt h (first.mark h.sound) (stage_allRest h before)
  omega

/-- What cooldowns keep apart in the next epoch of a layer and in all that follows. -/
structure Cools (l : Layer) (cooldown : Nat) : Prop where
  /-- A mark that is set anew is set more than a cooldown later. -/
  run : ∀ later, AllRest cooldown l (l.run later)
  /-- So it is between the turns of the epoch. -/
  stages : ∀ n m, n ≤ m → AllRest cooldown (l.stage n) (l.stage m)
  /-- A move marks its two sides with the epoch, and only these. -/
  marked : ∀ n x y, l.Move n x y →
    x ≠ y ∧ Marked (l.epoch + 1) x y (l.stage n) (l.stage (n + 1))
  /-- A mark that changes is that of a side of a move. -/
  marks : ∀ n z, (l.stage (n + 1)).mark z ≠ (l.stage n).mark z → l.TakesPart n z
  /-- What changes place in a turn that concerns it is a side of a move. -/
  places : ∀ n t z, l.turns[n]? = some t → t.Concerns z →
    (l.stage (n + 1)).mapping.placeOf z ≠ (l.stage n).mapping.placeOf z → l.TakesPart n z
  /-- What the epoch reports as moved are the sides of a move. -/
  reported : l.Accounts l.runEpoch.1
  /-- A turn makes one move at most. -/
  single : ∀ n x y x' y', l.Move n x y → l.Move n x' y' → x' = x ∧ y' = y
  /-- No entity takes part in the moves of two turns of the epoch. -/
  once : ∀ n m z, l.TakesPart n z → l.TakesPart m z → n = m
  /-- No entity takes part in a move of a later epoch before its cooldown is over. -/
  again : ∀ later n m z, l.TakesPart n z → (l.runEpoch.2.run later).TakesPart m z →
    l.epoch + cooldown < (l.runEpoch.2.run later).epoch

/-- Under every policy and for every cooldown, marks keep their distance at all times, every move
marks both of its sides, and no bank and no vault takes part in two moves within a cooldown. -/
theorem run_cooldown (s : RelocationSettings) (g : Geometry) (ops : List Operation) :
    ((ofSettings s g).run ops).Cools s.cooldownEpochs.toNat := by
  have under : ((ofSettings s g).run ops).Under s g := (ofSettings_under s g).run ops
  generalize (ofSettings s g).run ops = l at under
  have sound := under.sound
  exact {
    run := run_allRest under
    stages := fun n m le => stage_allRest under le
    marked := by
      intro n x y move
      have pairing := move.pairing sound
      exact ⟨pairing.ne, stage_epoch sound n ▸ pairing.marked⟩
    marks := fun n z changed => takesPart_of_mark sound changed
    places := fun n t z next concerns changed => takesPart_of_placeOf sound next concerns changed
    reported := runEpoch_accounts sound
    single := by
      rintro n x y x' y' ⟨t, next, move⟩ ⟨t', next', move'⟩
      cases next.symm.trans next'
      rcases epochAt_move sound next with still | ⟨_, _, only⟩
      · exact absurd move (still.none x y)
      · rcases only.only x y move with ⟨rfl, rfl⟩
        exact only.only x' y' move'
    once := by
      intro n m z first second
      have not_before := first.not_before second under
      have not_after := second.not_before first under
      omega
    again := by
      intro later n m z first second
      have next : (l.runEpoch.2.run later).Under s g := (under.perform .runEpoch).run later
      have stages : AllRest s.cooldownEpochs.toNat (l.runEpoch.2.run later)
          ((l.runEpoch.2.run later).stage m) :=
        (start_allRest _ _).trans (stage_allRest next (Nat.zero_le m))
      have rests := ((runEpoch_allRest under (n + 1)).trans
        (run_allRest (under.perform .runEpoch) later)).trans stages
      have waited := second.lt next (first.mark sound) rests
      omega }

/-- Two banks change place in the first epoch.  Both are marked with it, and neither moves before an
epoch that is more than the cooldown later. -/
theorem run_cooldown_swap :
    let s : RelocationSettings := { policy := .swap }
    let l := (ofSettings s ⟨1, 2, 4⟩).run [.setTemperature ⟨0, 0⟩ ⟨90.0⟩]
    l.Move 2 (.bank 0) (.bank 1) ∧ Marked 1 (.bank 0) (.bank 1) (l.stage 2) (l.stage 3) ∧
      ∀ later m z, z = .bank 0 ∨ z = .bank 1 → (l.runEpoch.2.run later).TakesPart m z →
        s.cooldownEpochs.toNat < (l.runEpoch.2.run later).epoch := by
  intro s l
  have cools : l.Cools s.cooldownEpochs.toNat := run_cooldown s ⟨1, 2, 4⟩ _
  have turn : l.turns[2]? = some (.relieveBank .swapping 0) := by decide +kernel
  have told : (l.epochAt 3).report.bankSwaps = (l.epochAt 2).report.bankSwaps ++
      [((l.epochAt 2).layer.geometry.bankAt 0, (l.epochAt 2).layer.geometry.bankAt 1)] := by
    decide +kernel
  have start : l.epoch = 0 := rfl
  clear_value l
  have move : l.Move 2 (.bank 0) (.bank 1) := ⟨_, turn, .reported (.bankSwap 0 1 told)⟩
  have marked := (cools.marked 2 _ _ move).2
  rw [start] at marked
  refine ⟨move, marked, fun later m z side part => ?_⟩
  have waited := cools.again later 2 m z ⟨_, _, move, side⟩ part
  rwa [start, Nat.zero_add] at waited

end Layer

end StackedCache
