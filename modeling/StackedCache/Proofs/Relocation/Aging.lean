import StackedCache.Proofs.Relocation.Reach

/-!
# What an epoch leaves of the entries

Decisions say whether an entity is in use and what its data is worth.  They never touch the counts
of its accesses, and they either leave the time of its last move alone or set it to the current
epoch; this is `Entry.Ages`.  So what is in its cooldown stays in it until the epoch is over.
-/

namespace StackedCache

open Relation (ReflTransGen)

/-! ## Entries -/

namespace Entry

variable {now : Nat} {e e' e'' : Entry}

/-- The counts of an entry are the same, and it has not moved unless it has moved now. -/
structure Ages (now : Nat) (e e' : Entry) : Prop where
  accesses : e'.accesses = e.accesses
  hotRows : e'.hotRows = e.hotRows
  moved : e'.movedAt = e.movedAt ∨ e'.movedAt = some now

theorem Ages.refl (e : Entry) : Ages now e e := ⟨rfl, rfl, .inl rfl⟩

theorem Ages.trans (h : Ages now e e') (h' : Ages now e' e'') : Ages now e e'' where
  accesses := h'.accesses.trans h.accesses
  hotRows := h'.hotRows.trans h.hotRows
  moved := by
    rcases h'.moved with same | moved
    · rw [same]
      exact h.moved
    · exact .inr moved

theorem ages_enable (e : Entry) : Ages now e e.enable := ⟨rfl, rfl, .inl rfl⟩

theorem ages_disable (e : Entry) (double : Bool) : Ages now e (e.disable double) :=
  ⟨rfl, rfl, .inl rfl⟩

theorem ages_invalidate (e : Entry) : Ages now e e.invalidate := ⟨rfl, rfl, .inl rfl⟩

theorem ages_markMoved (e : Entry) : Ages now e (e.markMoved now) := ⟨rfl, rfl, .inr rfl⟩

theorem ages_migrateRow (e : Entry) (row : Nat) : Ages now e (e.migrateRow row) := by
  unfold migrateRow
  split
  · exact ⟨rfl, rfl, .inl rfl⟩
  · exact .refl e

/-- An entry stays in its cooldown for the rest of the epoch, in which it may start anew. -/
theorem Ages.frozen {cooldown : Nat} (h : Ages now e e') (frozen : e.frozen now cooldown = true) :
    e'.frozen now cooldown = true := by
  rcases h.moved with same | moved
  · simpa only [Entry.frozen, same] using frozen
  · simp [Entry.frozen, moved]

end Entry

/-! ## Layers -/

namespace Layer

variable {l l' l'' : Layer} {id v : Nat} {f : Entry → Entry}

/-- All entries of the layer have aged. -/
structure Ages (l l' : Layer) : Prop where
  banks : ∀ id, Option.Rel (Entry.Ages l.epoch) (l.bank? id) (l'.bank? id)
  vaults : ∀ v, Option.Rel (Entry.Ages l.epoch) (l.vault? v) (l'.vault? v)

theorem rel_map {now : Nat} {o : Option Entry} (hf : ∀ e, Entry.Ages now e (f e)) :
    Option.Rel (Entry.Ages now) o (o.map f) := by
  cases o with
  | none => exact .none
  | some e => exact .some (hf e)

theorem rel_refl {now : Nat} (o : Option Entry) : Option.Rel (Entry.Ages now) o o := by
  cases o with
  | none => exact .none
  | some e => exact .some (.refl e)

theorem rel_trans {now : Nat} {o o' o'' : Option Entry} (h : Option.Rel (Entry.Ages now) o o')
    (h' : Option.Rel (Entry.Ages now) o' o'') : Option.Rel (Entry.Ages now) o o'' := by
  cases h with
  | none => exact h'
  | some first =>
      cases h' with
      | some second => exact .some (first.trans second)

/-- An entity in its cooldown stays in it while its entry ages. -/
theorem frozen_of_rel {o o' : Option Entry} (frame : SameFrame l l')
    (aged : Option.Rel (Entry.Ages l.epoch) o o') (frozen : l.frozen o = true) :
    l'.frozen o' = true := by
  simp only [Layer.frozen, frame.epoch, frame.settings] at frozen ⊢
  cases aged with
  | none => exact frozen
  | some entry => exact entry.frozen frozen

namespace Ages

theorem of_eq (banks : l'.banks = l.banks) (vaults : l'.vaults = l.vaults) : Ages l l' where
  banks := fun id => by
    unfold bank?
    rw [banks]
    exact rel_refl _
  vaults := fun v => by
    unfold vault?
    rw [vaults]
    exact rel_refl _

theorem refl (l : Layer) : Ages l l := of_eq rfl rfl

theorem trans (h : Ages l l') (h' : Ages l' l'') (now : l'.epoch = l.epoch) : Ages l l'' where
  banks := fun id => rel_trans (h.banks id) (now ▸ h'.banks id)
  vaults := fun v => rel_trans (h.vaults v) (now ▸ h'.vaults v)

theorem modifyBank (l : Layer) (id : Nat) (hf : ∀ e, Entry.Ages l.epoch e (f e)) :
    Ages l (l.modifyBank id f) where
  banks := fun i => by
    rw [bank?_modifyBank]
    split
    · exact rel_map hf
    · exact rel_refl _
  vaults := fun v => rel_refl _

theorem modifyVault (l : Layer) (v : Nat) (hf : ∀ e, Entry.Ages l.epoch e (f e)) :
    Ages l (l.modifyVault v f) where
  banks := fun id => rel_refl _
  vaults := fun w => by
    rw [vault?_modifyVault]
    split
    · exact rel_map hf
    · exact rel_refl _

theorem modifyBanks (l : Layer) (ids : List Nat) (hf : ∀ e, Entry.Ages l.epoch e (f e)) :
    Ages l (l.modifyBanks ids f) := by
  induction ids generalizing l with
  | nil => exact .refl l
  | cons i ids ih => exact (modifyBank l i hf).trans (ih (l.modifyBank i f) hf) rfl

theorem bankMoved (l : Layer) (id : Nat) : Ages l (l.bankMoved id) :=
  modifyBank l id fun e => (Entry.ages_invalidate e).trans (Entry.ages_markMoved _)

theorem vaultMoved (l : Layer) (v : Nat) : Ages l (l.vaultMoved v) :=
  (modifyVault l v Entry.ages_markMoved).trans (modifyBanks _ _ Entry.ages_invalidate) rfl

theorem rowMoved (l : Layer) (row a b : Nat) : Ages l (l.rowMoved row a b) :=
  (modifyBank l a (Entry.ages_migrateRow · row)).trans
    (modifyBank _ b (Entry.ages_migrateRow · row)) rfl

/-- A bank stays in its cooldown. -/
theorem bankFrozen (h : Ages l l') (frame : SameFrame l l') (frozen : l.bankFrozen id = true) :
    l'.bankFrozen id = true :=
  frozen_of_rel frame (h.banks id) frozen

/-- A bank that may move has been free to move all along. -/
theorem bankFree (h : Ages l l') (frame : SameFrame l l') (free : l'.bankFrozen id = false) :
    l.bankFrozen id = false := by
  cases frozen : l.bankFrozen id with
  | false => rfl
  | true =>
      rw [h.bankFrozen frame frozen] at free
      cases free

/-- A vault stays in its cooldown. -/
theorem vaultFrozen (h : Ages l l') (frame : SameFrame l l') (frozen : l.vaultFrozen v = true) :
    l'.vaultFrozen v = true :=
  frozen_of_rel frame (h.vaults v) frozen

end Ages

theorem RowChange.ages (step : RowChange l l') : Ages l l' := by
  cases step with
  | counts c => exact .of_eq rfl rfl
  | exchange row x y q x_lt y_lt swap =>
      have mapped : Ages l (l.withMapping { l.mapping with rows := l.mapping.rows.insert row q }) :=
        .of_eq rfl rfl
      exact mapped.trans (.rowMoved _ row _ _) rfl
  | markMoved id => exact .modifyBank l id Entry.ages_markMoved
  | dropIdentities => exact .of_eq rfl rfl

theorem Change.ages (change : Change l l') : Ages l l' := by
  cases change with
  | rows steps =>
      have chain : Ages l l' ∧ l'.epoch = l.epoch := by
        induction steps with
        | refl => exact ⟨.refl l, rfl⟩
        | tail _ step ih =>
            exact ⟨ih.1.trans step.ages ih.2, step.frame.epoch.trans ih.2⟩
      exact chain.1
  | enableBank id off c =>
      exact (Ages.modifyBank l id Entry.ages_enable).trans (.of_eq rfl rfl) rfl
  | disableBank id double id_lt on c =>
      exact (Ages.modifyBank l id (Entry.ages_disable · double)).trans (.of_eq rfl rfl) rfl
  | enableVault v off c =>
      exact (Ages.modifyVault l v Entry.ages_enable).trans (.of_eq rfl rfl) rfl
  | disableVault v v_lt on c =>
      have disabled := Ages.modifyVault l v (Entry.ages_disable · false)
      have invalidated :=
        disabled.trans (.modifyBanks _ (l.geometry.bankIdsOf v) Entry.ages_invalidate) rfl
      exact invalidated.trans (.of_eq rfl rfl) (modifyBanks_frame _ _ _).epoch
  | exchangeBanks a b q a_lt b_lt ne swap c =>
      have mapped : Ages l (l.withMapping { l.mapping with banks := q }) := .of_eq rfl rfl
      have moved := (mapped.trans (.bankMoved _ a) rfl).trans (.bankMoved _ b) rfl
      exact moved.trans (.of_eq rfl rfl) rfl
  | exchangeVaults v w q v_lt w_lt ne swap c =>
      have mapped : Ages l (l.withMapping { l.mapping with vaults := q }) := .of_eq rfl rfl
      have first := mapped.trans (.vaultMoved _ v) rfl
      have frame := vaultMoved_frame (l.withMapping { l.mapping with vaults := q }) v
      have second := first.trans (.vaultMoved _ w) frame.epoch
      exact second.trans (.of_eq rfl rfl) ((vaultMoved_frame _ w).epoch.trans frame.epoch)

theorem changes_ages (changes : ReflTransGen Change l l') : Ages l l' := by
  induction changes with
  | refl => exact .refl l
  | tail changes change ih => exact ih.trans change.ages (changes_frame changes).epoch

end Layer

end StackedCache
