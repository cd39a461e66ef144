import StackedCache.Proofs.Relocation.Aging

/-!
# Times of moves

Each entry keeps the epoch of its last move, its mark.  Banks and vaults are treated alike here: an
`Entity` is either, and a move marks two entities with the current epoch and no others.
-/

namespace StackedCache

/-- A logical bank or a logical vault. -/
inductive Entity where
  | bank (id : Nat)
  | vault (v : Nat)
  deriving DecidableEq, Repr

namespace Layer

variable {l l' : Layer} {id a b v w now : Nat} {x y : Entity} {f : Entry → Entry}

def entity? (l : Layer) : Entity → Option Entry
  | .bank id => l.bank? id
  | .vault v => l.vault? v

/-- The epoch of the last move of an entity. -/
def mark (l : Layer) (x : Entity) : Option Nat := (l.entity? x).bind (·.movedAt)

/-- An entity is in its cooldown. -/
def resting (l : Layer) (x : Entity) : Bool := l.frozen (l.entity? x)

/-- An entity out of its cooldown has not moved for longer than that. -/
theorem lt_of_not_resting {last : Nat} (free : l.resting x = false) (mark : l.mark x = some last) :
    last + l.settings.cooldownEpochs.toNat < l.epoch := by
  unfold resting frozen at free
  rcases Option.bind_eq_some_iff.1 mark with ⟨entry, found, moved⟩
  simp only [found, Option.any_some, Entry.frozen, moved, decide_eq_false_iff_not] at free
  omega

/-! ## Marks that stay -/

theorem mark_map (hf : ∀ e : Entry, (f e).movedAt = e.movedAt) (o : Option Entry) :
    (o.map f).bind (·.movedAt) = o.bind (·.movedAt) := by
  cases o with
  | none => rfl
  | some entry => exact hf entry

theorem entity?_modifyBank (l : Layer) (id : Nat) (f : Entry → Entry) (x : Entity) :
    (l.modifyBank id f).entity? x = if x = .bank id then (l.entity? x).map f else l.entity? x := by
  cases x with
  | vault v => rfl
  | bank i => simp only [entity?, bank?_modifyBank, Entity.bank.injEq, eq_comm]

theorem entity?_modifyVault (l : Layer) (v : Nat) (f : Entry → Entry) (x : Entity) :
    (l.modifyVault v f).entity? x = if x = .vault v then (l.entity? x).map f else l.entity? x := by
  cases x with
  | bank id => rfl
  | vault w => simp only [entity?, vault?_modifyVault, Entity.vault.injEq, eq_comm]

theorem mark_modifyBank (l : Layer) (id : Nat) (f : Entry → Entry)
    (hf : ∀ e, (f e).movedAt = e.movedAt := by exact fun _ => rfl) :
    (l.modifyBank id f).mark = l.mark := by
  funext x
  unfold mark
  rw [entity?_modifyBank]
  split
  · exact mark_map hf _
  · rfl

theorem mark_modifyBanks (l : Layer) (ids : List Nat) (f : Entry → Entry)
    (hf : ∀ e, (f e).movedAt = e.movedAt := by exact fun _ => rfl) :
    (l.modifyBanks ids f).mark = l.mark := by
  induction ids generalizing l with
  | nil => rfl
  | cons id ids ih => exact (ih (l.modifyBank id f)).trans (mark_modifyBank l id f hf)

theorem mark_modifyVault (l : Layer) (v : Nat) (f : Entry → Entry)
    (hf : ∀ e, (f e).movedAt = e.movedAt := by exact fun _ => rfl) :
    (l.modifyVault v f).mark = l.mark := by
  funext x
  unfold mark
  rw [entity?_modifyVault]
  split
  · exact mark_map hf _
  · rfl

theorem mark_mapEntries (l : Layer) (f g : Entry → Entry)
    (hf : ∀ e, (f e).movedAt = e.movedAt := by exact fun _ => rfl)
    (hg : ∀ e, (g e).movedAt = e.movedAt := by exact fun _ => rfl) :
    mark { l with banks := l.banks.map f, vaults := l.vaults.map g } = l.mark := by
  funext x
  cases x with
  | bank id =>
      simp only [mark, entity?, bank?, Array.getElem?_map]
      exact mark_map hf _
  | vault v =>
      simp only [mark, entity?, vault?, Array.getElem?_map]
      exact mark_map hg _

/-! ## Marks of a move -/

/-- Two entities have moved now, and the marks of all others are kept. -/
def Marked (now : Nat) (x y : Entity) (l l' : Layer) : Prop :=
  ∀ z, l'.mark z = if z = x ∨ z = y then some now else l.mark z

theorem mark_moved (hf : ∀ e : Entry, (f e).movedAt = some now) {o : Option Entry}
    (exists_entry : ∃ entry, o = some entry) : (o.map f).bind (·.movedAt) = some now := by
  rcases exists_entry with ⟨entry, rfl⟩
  exact hf entry

theorem mark_modifyBank_moved (h : l.Sound) (id_lt : id < l.geometry.totalBanks)
    (hf : ∀ e : Entry, (f e).movedAt = some now) (z : Entity) :
    (l.modifyBank id f).mark z = if z = .bank id then some now else l.mark z := by
  unfold mark
  rw [entity?_modifyBank]
  split
  · rename_i same
    subst same
    exact mark_moved hf (h.exists_bank id_lt)
  · rfl

theorem mark_modifyVault_moved (h : l.Sound) (v_lt : v < l.geometry.vaults)
    (hf : ∀ e : Entry, (f e).movedAt = some now) (z : Entity) :
    (l.modifyVault v f).mark z = if z = .vault v then some now else l.mark z := by
  unfold mark
  rw [entity?_modifyVault]
  split
  · rename_i same
    subst same
    exact mark_moved hf (h.exists_vault v_lt)
  · rfl

/-- Two entities that are marked one after the other are both marked. -/
theorem Marked.of_steps {l'' : Layer}
    (first : ∀ z, l'.mark z = if z = x then some now else l.mark z)
    (second : ∀ z, l''.mark z = if z = y then some now else l'.mark z) : Marked now x y l l'' := by
  intro z
  rw [second, first]
  by_cases last : z = y
  · simp [last]
  · simp [last]

/-- Two banks whose entries are marked have moved now. -/
theorem marked_modifyBank (h : l.Sound) (a_lt : a < l.geometry.totalBanks)
    (b_lt : b < l.geometry.totalBanks) (hf : ∀ e : Entry, (f e).movedAt = some now)
    (hid : ∀ e : Entry, (f e).id = e.id) :
    Marked now (.bank a) (.bank b) l ((l.modifyBank a f).modifyBank b f) := by
  have first := mark_modifyBank_moved h a_lt hf
  have sound : (l.modifyBank a f).Sound := h.modifyBank hid
  have second := mark_modifyBank_moved sound b_lt hf
  exact .of_steps first second

theorem mark_vaultMoved (h : l.Sound) (v_lt : v < l.geometry.vaults) (z : Entity) :
    (l.vaultMoved v).mark z = if z = .vault v then some l.epoch else l.mark z := by
  rw [vaultMoved, mark_modifyBanks _ _ Entry.invalidate]
  exact mark_modifyVault_moved h v_lt (fun _ => rfl) z

/-- Two banks that exchange their slots are marked. -/
theorem marked_exchangeBanks {q : Permutation} (h : l.Sound) (a_lt : a < l.geometry.totalBanks)
    (b_lt : b < l.geometry.totalBanks)
    (swap : l.mapping.banks.swap? (l.mapping.slotOf a) (l.mapping.slotOf b) = some q)
    (c : RelocationCounts) :
    Marked l.epoch (.bank a) (.bank b) l
      ((((l.withMapping { l.mapping with banks := q }).bankMoved a).bankMoved b).withCounts c) := by
  have hq : q.Inverse l.geometry.totalBanks := h.mapping.banks.swap? swap
  have mapped := h.withMapping (h.mapping.withBanks hq) rfl
  have marked := marked_modifyBank (f := fun entry => entry.invalidate.markMoved l.epoch) mapped
    a_lt b_lt (fun _ => rfl) fun _ => rfl
  exact marked

/-- Two vaults that exchange their physical vaults are marked. -/
theorem marked_exchangeVaults {q : Permutation} (h : l.Sound) (v_lt : v < l.geometry.vaults)
    (w_lt : w < l.geometry.vaults) (swap : l.mapping.vaults.swap? v w = some q)
    (c : RelocationCounts) :
    Marked l.epoch (.vault v) (.vault w) l
      ((((l.withMapping { l.mapping with vaults := q }).vaultMoved v).vaultMoved w).withCounts
        c) := by
  have hq : q.Inverse l.geometry.vaults := h.mapping.vaults.swap? swap
  have mapped := h.withMapping (h.mapping.withVaults hq) rfl
  have frame := vaultMoved_frame (l.withMapping { l.mapping with vaults := q }) v
  have w_lt :
      w < ((l.withMapping { l.mapping with vaults := q }).vaultMoved v).geometry.vaults := by
    rw [frame.geometry]
    exact w_lt
  have first := mark_vaultMoved mapped v_lt
  have second := mark_vaultMoved mapped.vaultMoved w_lt
  rw [frame.epoch] at second
  exact .of_steps first second

end Layer

end StackedCache
