import StackedCache.Proofs.Relocation.Moves

/-!
# Partners

A move has two sides: the banks that exchange slots or rows, or the vaults that exchange places.
Which two they are is seen in the report of the epoch or, when one of them goes home, in the places
that change.  A turn has one such pair or none, `take_move`.
-/

namespace StackedCache

namespace Layer

variable {l l' : Layer} {x y z : Entity}

/-! ## Two sides of a move -/

/-- Two different entities out of their cooldown have moved, and are marked with the epoch. -/
structure Pairing (l : Layer) (x y : Entity) (l' : Layer) : Prop where
  ne : x ≠ y
  free : l.resting x = false ∧ l.resting y = false
  marked : Marked l.epoch x y l l'

namespace Pairing

theorem mark (h : l.Pairing x y l') (side : z = x ∨ z = y) : l'.mark z = some l.epoch := by
  rw [h.marked, if_pos side]

theorem not_resting (h : l.Pairing x y l') (side : z = x ∨ z = y) : l.resting z = false := by
  rcases side with rfl | rfl
  · exact h.free.1
  · exact h.free.2

/-- The sides are known by their marks. -/
theorem mark_ne (h : l.Pairing x y l') : l'.mark z ≠ l.mark z ↔ z = x ∨ z = y := by
  constructor
  · intro changed
    by_contra other
    exact changed (by rw [h.marked, if_neg other])
  · intro side same
    rw [h.mark side] at same
    have earlier := lt_of_not_resting (h.not_resting side) same.symm
    omega

end Pairing

end Layer

/-! ## Reports of moves -/

theorem Geometry.bankAt_injective {g : Geometry} {a b : Nat} (same : g.bankAt a = g.bankAt b) :
    a = b := by
  have ids := congrArg g.bankId same
  rwa [bankId_bankAt, bankId_bankAt] at ids

namespace Report

variable {g : Geometry} {r r' : Report} {x y : Entity}

/-- The later report has one more move, of these two entities. -/
inductive Tells (g : Geometry) (r r' : Report) : Entity → Entity → Prop where
  | bankSwap (a b : Nat) (swaps : r'.bankSwaps = r.bankSwaps ++ [(g.bankAt a, g.bankAt b)]) :
      Tells g r r' (.bank a) (.bank b)
  | rowMigration (a b : Nat) (rows : List Nat)
      (migrations : r'.rowMigrations = r.rowMigrations ++ [⟨g.bankAt a, g.bankAt b, rows⟩]) :
      Tells g r r' (.bank a) (.bank b)
  | vaultSwap (v w : Nat) (swaps : r'.vaultSwaps = r.vaultSwaps ++ [(v, w)]) :
      Tells g r r' (.vault v) (.vault w)

/-- What a report tells, given all the moves in it. -/
theorem Tells.cases (told : Tells g r r' x y) {swaps : List (BankPlace × BankPlace)}
    {migrations : List RowMigration} {vaults : List (Nat × Nat)}
    (moves : r'.moves = (swaps, migrations, vaults)) :
    (∃ a b, swaps = r.bankSwaps ++ [(g.bankAt a, g.bankAt b)] ∧ x = .bank a ∧ y = .bank b) ∨
      (∃ a b rows, migrations = r.rowMigrations ++ [⟨g.bankAt a, g.bankAt b, rows⟩] ∧
        x = .bank a ∧ y = .bank b) ∨
      ∃ v w, vaults = r.vaultSwaps ++ [(v, w)] ∧ x = .vault v ∧ y = .vault w := by
  simp only [Report.moves, Prod.mk.injEq] at moves
  rcases moves with ⟨rfl, rfl, rfl⟩
  cases told with
  | bankSwap a b swaps => exact .inl ⟨a, b, swaps, rfl, rfl⟩
  | rowMigration a b rows migrations => exact .inr (.inl ⟨a, b, rows, migrations, rfl, rfl⟩)
  | vaultSwap v w swaps => exact .inr (.inr ⟨v, w, swaps, rfl, rfl⟩)

theorem not_tells (moves : r'.moves = r.moves) : ¬Tells g r r' x y := by
  intro told
  have cases := told.cases moves
  simp at cases

theorem Tells.of_bankSwap {a b : Nat} (told : Tells g r r' x y)
    (moves : r'.moves =
      (r.bankSwaps ++ [(g.bankAt a, g.bankAt b)], r.rowMigrations, r.vaultSwaps)) :
    x = .bank a ∧ y = .bank b := by
  have cases := told.cases moves
  simp only [List.append_cancel_left_eq, List.cons.injEq, Prod.mk.injEq, and_true,
    List.self_eq_append_right, List.cons_ne_nil, false_and, exists_false, or_false] at cases
  rcases cases with ⟨a', b', ⟨first, second⟩, rfl, rfl⟩
  rw [Geometry.bankAt_injective first, Geometry.bankAt_injective second]
  exact ⟨rfl, rfl⟩

theorem Tells.of_rowMigration {a b : Nat} {rows : List Nat} (told : Tells g r r' x y)
    (moves : r'.moves = (r.bankSwaps, r.rowMigrations ++ [⟨g.bankAt a, g.bankAt b, rows⟩],
      r.vaultSwaps)) : x = .bank a ∧ y = .bank b := by
  have cases := told.cases moves
  simp only [List.append_cancel_left_eq, List.cons.injEq, RowMigration.mk.injEq, and_true,
    List.self_eq_append_right, List.cons_ne_nil, false_and, exists_false, or_false,
    false_or] at cases
  rcases cases with ⟨a', b', _, ⟨first, second, _⟩, rfl, rfl⟩
  rw [Geometry.bankAt_injective first, Geometry.bankAt_injective second]
  exact ⟨rfl, rfl⟩

theorem Tells.of_vaultSwap {v w : Nat} (told : Tells g r r' x y)
    (moves : r'.moves = (r.bankSwaps, r.rowMigrations, r.vaultSwaps ++ [(v, w)])) :
    x = .vault v ∧ y = .vault w := by
  have cases := told.cases moves
  simp only [List.append_cancel_left_eq, List.cons.injEq, Prod.mk.injEq, and_true,
    List.self_eq_append_right, List.cons_ne_nil, false_and, exists_false, false_or] at cases
  rcases cases with ⟨v', w', ⟨rfl, rfl⟩, rfl, rfl⟩
  exact ⟨rfl, rfl⟩

/-- Every move in the later report is an old one, or the one that it tells. -/
structure Explains (g : Geometry) (r r' : Report) : Prop where
  bankSwaps : ∀ swap ∈ r'.bankSwaps, swap ∈ r.bankSwaps ∨
    ∃ a b, swap = (g.bankAt a, g.bankAt b) ∧ Tells g r r' (.bank a) (.bank b)
  rowMigrations : ∀ migration ∈ r'.rowMigrations, migration ∈ r.rowMigrations ∨
    ∃ a b, (migration.source, migration.target) = (g.bankAt a, g.bankAt b) ∧
      Tells g r r' (.bank a) (.bank b)
  vaultSwaps : ∀ swap ∈ r'.vaultSwaps, swap ∈ r.vaultSwaps ∨
    Tells g r r' (.vault swap.1) (.vault swap.2)

namespace Explains

theorem of_same (moves : r'.moves = r.moves) : Explains g r r' := by
  simp only [Report.moves, Prod.mk.injEq] at moves
  rcases moves with ⟨banks, migrations, vaults⟩
  refine ⟨fun _ old => .inl ?_, fun _ old => .inl ?_, fun _ old => .inl ?_⟩
  · rwa [← banks]
  · rwa [← migrations]
  · rwa [← vaults]

theorem of_bankSwap {a b : Nat} (moves : r'.moves =
    (r.bankSwaps ++ [(g.bankAt a, g.bankAt b)], r.rowMigrations, r.vaultSwaps)) :
    Explains g r r' := by
  simp only [Report.moves, Prod.mk.injEq] at moves
  rcases moves with ⟨banks, migrations, vaults⟩
  refine ⟨fun swap mem => ?_, fun _ old => .inl ?_, fun _ old => .inl ?_⟩
  · rw [banks, List.mem_append, List.mem_singleton] at mem
    exact mem.imp_right fun new => ⟨a, b, new, .bankSwap a b banks⟩
  · rwa [← migrations]
  · rwa [← vaults]

theorem of_rowMigration {a b : Nat} {rows : List Nat} (moves : r'.moves =
    (r.bankSwaps, r.rowMigrations ++ [⟨g.bankAt a, g.bankAt b, rows⟩], r.vaultSwaps)) :
    Explains g r r' := by
  simp only [Report.moves, Prod.mk.injEq] at moves
  rcases moves with ⟨banks, migrations, vaults⟩
  refine ⟨fun _ old => .inl ?_, fun migration mem => ?_, fun _ old => .inl ?_⟩
  · rwa [← banks]
  · rw [migrations, List.mem_append, List.mem_singleton] at mem
    refine mem.imp_right fun new => ⟨a, b, ?_, .rowMigration a b rows migrations⟩
    rw [new]
  · rwa [← vaults]

theorem of_vaultSwap {v w : Nat} (moves : r'.moves =
    (r.bankSwaps, r.rowMigrations, r.vaultSwaps ++ [(v, w)])) : Explains g r r' := by
  simp only [Report.moves, Prod.mk.injEq] at moves
  rcases moves with ⟨banks, migrations, vaults⟩
  refine ⟨fun _ old => .inl ?_, fun _ old => .inl ?_, fun swap mem => ?_⟩
  · rwa [← banks]
  · rwa [← migrations]
  · rw [vaults, List.mem_append, List.mem_singleton] at mem
    refine mem.imp_right fun new => ?_
    rw [new]
    exact .vaultSwap v w vaults

end Explains

end Report

/-! ## Moves of a turn -/

/-- The physical bank of a bank, or the physical vault of a vault. -/
def Mapping.placeOf (m : Mapping) : Entity → Option Nat
  | .bank id => some (m.physicalOf id)
  | .vault v => m.vaults.target? v

/-- The turn is not one that takes banks along with their vaults. -/
def Turn.Concerns (t : Turn) : Entity → Prop
  | .bank _ => t.OfBanks
  | .vault _ => True

namespace Epoch

open Layer

variable {e e' : Epoch} {t : Turn} {x y : Entity}

/-- Two entities move between two epochs: their move is reported, or one goes home in its turn and
the other one changes place with it. -/
inductive Move (e : Epoch) (t : Turn) (e' : Epoch) : Entity → Entity → Prop where
  | reported {x y : Entity} (told : Report.Tells e.layer.geometry e.report e'.report x y) :
      Move e t e' x y
  | bankReturn (a b : Nat) (turn : t = .recoverBank a) (ne : a ≠ b)
      (first : e'.layer.mapping.placeOf (.bank a) ≠ e.layer.mapping.placeOf (.bank a))
      (second : e'.layer.mapping.placeOf (.bank b) ≠ e.layer.mapping.placeOf (.bank b)) :
      Move e t e' (.bank a) (.bank b)
  | vaultReturn (v w : Nat) (turn : t = .recoverVault v) (ne : v ≠ w)
      (first : e'.layer.mapping.placeOf (.vault v) ≠ e.layer.mapping.placeOf (.vault v))
      (second : e'.layer.mapping.placeOf (.vault w) ≠ e.layer.mapping.placeOf (.vault w)) :
      Move e t e' (.vault v) (.vault w)

/-- No entity moves, and none is marked. -/
structure NoMove (e : Epoch) (t : Turn) (e' : Epoch) : Prop where
  mark : e'.layer.mark = e.layer.mark
  places : e'.layer.mapping.placeOf = e.layer.mapping.placeOf
  none : ∀ x y, ¬Move e t e' x y

/-- The only move is that of two entities. -/
structure OnlyMove (e : Epoch) (t : Turn) (e' : Epoch) (x y : Entity) : Prop where
  pairing : e.layer.Pairing x y e'.layer
  move : Move e t e' x y
  only : ∀ x' y', Move e t e' x' y' → x' = x ∧ y' = y
  others : ∀ z, t.Concerns z → z ≠ x → z ≠ y →
    e'.layer.mapping.placeOf z = e.layer.mapping.placeOf z

/-- In a turn that relieves, moves are those that are reported. -/
theorem Move.told_of_relief (move : Move e t e' x y)
    (relief : (∃ kind id, t = .relieveBank kind id) ∨ ∃ v, t = .relieveVault v) :
    Report.Tells e.layer.geometry e.report e'.report x y := by
  cases move with
  | reported told => exact told
  | bankReturn a b turn => rcases relief with ⟨_, _, rfl⟩ | ⟨_, rfl⟩ <;> cases turn
  | vaultReturn v w turn => rcases relief with ⟨_, _, rfl⟩ | ⟨_, rfl⟩ <;> cases turn

theorem noMove_of_places (mark : e'.layer.mark = e.layer.mark)
    (places : e'.layer.mapping.placeOf = e.layer.mapping.placeOf)
    (moves : e'.report.moves = e.report.moves) : NoMove e t e' := by
  refine ⟨mark, places, fun x y move => ?_⟩
  cases move with
  | reported told => exact Report.not_tells moves told
  | bankReturn a b turn ne first => exact first (congrFun places _)
  | vaultReturn v w turn ne first => exact first (congrFun places _)

/-- Two banks that exchange slots exchange their places, and nothing else moves. -/
theorem placeOf_exchangeBanks {id other : Nat} {q : Permutation} (h : e.layer.Sound)
    (id_lt : id < e.layer.geometry.totalBanks) (other_lt : other < e.layer.geometry.totalBanks)
    (swap : e.layer.mapping.banks.swap? (e.layer.mapping.slotOf id)
      (e.layer.mapping.slotOf other) = some q)
    (mapping : e'.layer.mapping = { e.layer.mapping with banks := q }) (z : Entity) :
    e'.layer.mapping.placeOf z =
      if z = .bank other then e.layer.mapping.placeOf (.bank id)
      else if z = .bank id then e.layer.mapping.placeOf (.bank other)
      else e.layer.mapping.placeOf z := by
  cases z with
  | bank k =>
      have physical := h.mapping.physicalOf_swapBanks id_lt other_lt swap k
      simp only [Mapping.placeOf, mapping, physical, Entity.bank.injEq]
      split
      · rfl
      · split <;> rfl
  | vault v =>
      rw [mapping]
      rfl

/-- Two vaults that exchange places, apart from the banks in them. -/
theorem placeOf_exchangeVaults {v w : Nat} {q : Permutation}
    (swap : e.layer.mapping.vaults.swap? v w = some q)
    (mapping : e'.layer.mapping = { e.layer.mapping with vaults := q }) (u : Nat) :
    e'.layer.mapping.placeOf (.vault u) =
      if u = w then e.layer.mapping.placeOf (.vault v)
      else if u = v then e.layer.mapping.placeOf (.vault w)
      else e.layer.mapping.placeOf (.vault u) := by
  simp only [Mapping.placeOf, mapping, Permutation.target?_swap? swap]

/-- The move of two banks that exchange slots as one of them goes home. -/
theorem onlyMove_returnBank {id other : Nat} {q : Permutation} (h : e.layer.Sound)
    (id_lt : id < e.layer.geometry.totalBanks) (other_lt : other < e.layer.geometry.totalBanks)
    (ne : id ≠ other)
    (swap : e.layer.mapping.banks.swap? (e.layer.mapping.slotOf id)
      (e.layer.mapping.slotOf other) = some q)
    (mapping : e'.layer.mapping = { e.layer.mapping with banks := q })
    (moves : e'.report.moves = e.report.moves)
    (pairing : e.layer.Pairing (.bank id) (.bank other) e'.layer) :
    OnlyMove e (.recoverBank id) e' (.bank id) (.bank other) := by
  have places := placeOf_exchangeBanks h id_lt other_lt swap mapping
  have others : ∀ z, z ≠ .bank id → z ≠ .bank other →
      e'.layer.mapping.placeOf z = e.layer.mapping.placeOf z := by
    intro z not_id not_other
    rw [places, if_neg not_other, if_neg not_id]
  have apart : e.layer.mapping.placeOf (.bank id) ≠ e.layer.mapping.placeOf (.bank other) :=
    fun same => ne (h.mapping.physicalOf_injective (Option.some.inj same))
  refine ⟨pairing, .bankReturn id other rfl ne ?_ ?_, fun x y move => ?_, fun z _ => others z⟩
  · rw [places, if_neg pairing.ne, if_pos rfl]
    exact apart.symm
  · rw [places, if_pos rfl]
    exact apart
  · cases move with
    | reported told => exact absurd told (Report.not_tells moves)
    | vaultReturn v w turn => cases turn
    | bankReturn a b turn ne' first second =>
        cases turn
        -- A third bank stays where it is.
        have same : Entity.bank b = .bank other := by
          by_contra third
          exact second (others _ (fun same => ne' (Entity.bank.inj same).symm) third)
        exact ⟨rfl, same⟩

/-- The move of two vaults that exchange places as one of them goes home. -/
theorem onlyMove_returnVault {v w : Nat} {q : Permutation} (h : e.layer.Sound) (ne : v ≠ w)
    (swap : e.layer.mapping.vaults.swap? v w = some q)
    (mapping : e'.layer.mapping = { e.layer.mapping with vaults := q })
    (moves : e'.report.moves = e.report.moves)
    (pairing : e.layer.Pairing (.vault v) (.vault w) e'.layer) :
    OnlyMove e (.recoverVault v) e' (.vault v) (.vault w) := by
  have places := placeOf_exchangeVaults swap mapping
  have others : ∀ u, u ≠ v → u ≠ w →
      e'.layer.mapping.placeOf (.vault u) = e.layer.mapping.placeOf (.vault u) := by
    intro u not_v not_w
    rw [places, if_neg not_w, if_neg not_v]
  have apart : e.layer.mapping.placeOf (.vault v) ≠ e.layer.mapping.placeOf (.vault w) := by
    rcases Permutation.targets_of_swap? swap with ⟨p, p', hp, hp'⟩
    intro same
    exact ne (h.mapping.vaults.target?_injective hp (same.symm.trans hp))
  refine ⟨pairing, .vaultReturn v w rfl ne ?_ ?_, fun x y move => ?_, fun z concerns hv hw => ?_⟩
  · rw [places, if_neg ne, if_pos rfl]
    exact apart.symm
  · rw [places, if_pos rfl]
    exact apart
  · cases move with
    | reported told => exact absurd told (Report.not_tells moves)
    | bankReturn a b turn => cases turn
    | vaultReturn a b turn ne' first second =>
        cases turn
        have same : b = w := by
          by_contra third
          exact second (others b ne'.symm third)
        exact ⟨rfl, by rw [same]⟩
  · cases z with
    | bank id => exact concerns.elim
    | vault u => exact others u (fun same => hv (by rw [same])) fun same => hw (by rw [same])

/-- A turn makes no move and touches no mark, or it makes just one. -/
theorem take_move (h : e.layer.Sound) (within : t.Within e.layer.geometry) :
    NoMove e t (e.take t) ∨ ∃ x y, OnlyMove e t (e.take t) x y := by
  have banks : ∀ {a b : Nat}, a ≠ b → Entity.bank a ≠ .bank b := by simp
  have vaults : ∀ {v w : Nat}, v ≠ w → Entity.vault v ≠ .vault w := by simp
  have rowsOnly : ∀ {e' : Epoch},
      (∃ rows, e'.layer.mapping = { e.layer.mapping with rows := rows }) →
      e'.layer.mapping.placeOf = e.layer.mapping.placeOf := by
    rintro e' ⟨rows, mapping⟩
    rw [mapping]
    funext z
    cases z <;> rfl
  have moves := take_moves h within
  generalize e.take t = e' at moves
  cases moves with
  | still same => exact .inl (noMove_of_places same.mark (by rw [same.mapping]) same.moves)
  | returnRows rows => exact .inl (noMove_of_places rows.mark (rowsOnly rows.mapping) rows.moves)
  | returnBank id other q id_lt other_lt ne away there free mild swap mapping marked moves =>
      exact .inr ⟨_, _, onlyMove_returnBank h id_lt other_lt ne swap mapping moves
        ⟨banks ne, free, marked⟩⟩
  | returnVault v w q v_lt ne away there free swap mapping marked moves =>
      exact .inr ⟨_, _, onlyMove_returnVault h ne swap mapping moves ⟨vaults ne, free, marked⟩⟩
  | swapBanks id target q id_lt ne needy home found swap mapping marked moves =>
      have free := And.intro (bankFrozen_of_needy needy) (bankTarget?_free found).2
      have told := Report.Tells.bankSwap (g := e.layer.geometry) _ _ (congrArg Prod.fst moves)
      have target_lt := (bankTarget?_range found (h.mapping.physicalOf_lt id_lt)).1
      have places := placeOf_exchangeBanks h id_lt (h.mapping.logicalOf_lt target_lt) swap mapping
      refine .inr ⟨_, _, ⟨banks ne, free, marked⟩, .reported told, fun x y move => ?_,
        fun z _ hx hy => ?_⟩
      · exact (move.told_of_relief (.inl ⟨_, _, rfl⟩)).of_bankSwap moves
      · rw [places, if_neg hy, if_neg hx]
  | migrateRows id target rows id_lt ne needy found mapping marked moves =>
      have free := And.intro (bankFrozen_of_needy needy) (bankTarget?_free found).2
      have told := Report.Tells.rowMigration (g := e.layer.geometry) _ _ rows
        (congrArg (fun moves => moves.2.1) moves)
      refine .inr ⟨_, _, ⟨banks ne, free, marked⟩, .reported told, fun x y move => ?_,
        fun z _ _ _ => congrFun (rowsOnly mapping) z⟩
      exact (move.told_of_relief (.inl ⟨_, _, rfl⟩)).of_rowMigration moves
  | swapVaults v w q v_lt ne home free cool swap mapping marked moves =>
      have told := Report.Tells.vaultSwap (g := e.layer.geometry) v w
        (congrArg (fun moves => moves.2.2) moves)
      have places := placeOf_exchangeVaults swap mapping
      refine .inr ⟨_, _, ⟨vaults ne, free, marked⟩, .reported told, fun x y move => ?_,
        fun z concerns hv hw => ?_⟩
      · exact (move.told_of_relief (.inr ⟨v, rfl⟩)).of_vaultSwap moves
      · cases z with
        | bank id => exact concerns.elim
        | vault u =>
            rw [places, if_neg fun same => hw (by rw [same]), if_neg fun same => hv (by rw [same])]

/-- A turn reports no moves but its own. -/
theorem take_explains (h : e.layer.Sound) (within : t.Within e.layer.geometry) :
    Report.Explains e.layer.geometry e.report (e.take t).report := by
  have moves := take_moves h within
  generalize e.take t = e' at moves
  cases moves with
  | still same => exact .of_same same.moves
  | returnRows rows => exact .of_same rows.moves
  | returnBank id other q id_lt other_lt ne away there free mild swap mapping marked moves =>
      exact .of_same moves
  | returnVault v w q v_lt ne away there free swap mapping marked moves => exact .of_same moves
  | swapBanks id target q id_lt ne needy home found swap mapping marked moves =>
      exact .of_bankSwap moves
  | migrateRows id target rows id_lt ne needy found mapping marked moves =>
      exact .of_rowMigration moves
  | swapVaults v w q v_lt ne home free cool swap mapping marked moves => exact .of_vaultSwap moves

end Epoch

end StackedCache
