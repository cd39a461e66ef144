import StackedCache.Proofs.Address
import StackedCache.Proofs.Service.Steps

/-!
# Frames of pages

A table that starts empty gives the pages frames in the order of their first use.  `Numbers` is the
invariant: frames are dense, tell pages apart and are in the order of first use.  The next frame is
the size of the table, so one more page keeps it.  As a page keeps its frame, equal addresses, and
no others, are renumbered alike: `renumberAll_stable`.
-/

namespace StackedCache

namespace PageTable

variable {t t' : PageTable} {used addrs more : List Nat} {addr page page' frame frame' : Nat}

/-- Renumbers addresses one after the other. -/
def renumberAll (t : PageTable) : List Nat → List Nat × PageTable
  | [] => ([], t)
  | addr :: addrs =>
      let first := t.renumber addr
      let rest := first.2.renumberAll addrs
      (first.1 :: rest.1, rest.2)

theorem renumberAll_append (t : PageTable) (addrs more : List Nat) :
    t.renumberAll (addrs ++ more) =
      ((t.renumberAll addrs).1 ++ ((t.renumberAll addrs).2.renumberAll more).1,
        ((t.renumberAll addrs).2.renumberAll more).2) := by
  induction addrs generalizing t with
  | nil => rfl
  | cons addr addrs ih => simp only [List.cons_append, renumberAll, ih]

/-! ## Growing tables -/

/-- Pages keep their frames. -/
def Grows (t t' : PageTable) : Prop :=
  ∀ page frame, t.frame? page = some frame → t'.frame? page = some frame

/-- The frames after a new page has got the next one. -/
theorem frame?_insert (t : PageTable) (page other : Nat) :
    frame? ⟨t.pages.insert page t.pages.size⟩ other =
      if other = page then some t.pages.size else t.frame? other :=
  Table.find?_insert _ _ _ _

theorem frameOf_grows (t : PageTable) (page : Nat) : t.Grows (t.frameOf page).2 := by
  intro other frame has
  rcases t.frameOf_cases page with ⟨_, _, kept⟩ | ⟨missing, added⟩
  · rw [kept]
    exact has
  · rw [added, frame?_insert, if_neg]
    · exact has
    · rintro rfl
      exact absurd (missing.symm.trans has) nofun

theorem renumberAll_grows (t : PageTable) (addrs : List Nat) : t.Grows (t.renumberAll addrs).2 := by
  induction addrs generalizing t with
  | nil => exact fun _ _ has => has
  | cons addr addrs ih =>
      exact fun page frame has => ih _ page frame (t.frameOf_grows (addr / frameSize) page frame has)

theorem frame?_frameOf (t : PageTable) (page : Nat) :
    (t.frameOf page).2.frame? page = some (t.frameOf page).1 := by
  rcases t.frameOf_cases page with ⟨frame, has, kept⟩ | ⟨_, added⟩
  · rw [kept]
    exact has
  · rw [added, frame?_insert, if_pos rfl]

/-! ## Renumbered addresses -/

/-- What an address is renumbered to, if its page has a frame. -/
def place? (t : PageTable) (addr : Nat) : Option Nat :=
  (t.frame? (addr / frameSize)).map (· * frameSize + addr % frameSize)

/-- The frame replaces the page, and the offset stays. -/
theorem place?_eq_some_iff {result : Nat} : t.place? addr = some result ↔
    t.frame? (addr / frameSize) = some (result / frameSize) ∧
      result % frameSize = addr % frameSize := by
  have offset : addr % frameSize < frameSize := Nat.mod_lt _ (by decide)
  rw [place?, Option.map_eq_some_iff]
  constructor
  · rintro ⟨frame, has, rfl⟩
    rw [mul_add_div_of_lt offset, Nat.mul_add_mod_of_lt offset]
    exact ⟨has, rfl⟩
  · rintro ⟨has, same⟩
    exact ⟨_, has, by rw [← same, Nat.div_add_mod']⟩

/-- All addresses are renumbered by the frames that their pages have in the end. -/
theorem renumberAll_fst (t : PageTable) (addrs : List Nat) :
    addrs.map (t.renumberAll addrs).2.place? = (t.renumberAll addrs).1.map some := by
  induction addrs generalizing t with
  | nil => rfl
  | cons addr addrs ih =>
      -- The frame got now is the frame in the end, as later addresses only add pages.
      have last := renumberAll_grows (t.renumber addr).2 addrs _ _
        (t.frame?_frameOf (addr / frameSize))
      have first : ((t.renumber addr).2.renumberAll addrs).2.place? addr =
          some (t.renumber addr).1 := by
        rw [place?, last]
        rfl
      simp only [renumberAll, List.map_cons, first, ih]

theorem renumberAll_length (t : PageTable) (addrs : List Nat) :
    (t.renumberAll addrs).1.length = addrs.length := by
  have lengths := congrArg List.length (t.renumberAll_fst addrs)
  rwa [List.length_map, List.length_map, eq_comm] at lengths

theorem getElem?_renumberAll {i : Nat} (here : addrs[i]? = some addr) :
    ∃ result, (t.renumberAll addrs).1[i]? = some result ∧
      (t.renumberAll addrs).2.place? addr = some result := by
  have both := congrArg (·[i]?) (t.renumberAll_fst addrs)
  simp only [List.getElem?_map, here, Option.map_some] at both
  rcases Option.map_eq_some_iff.1 both.symm with ⟨result, found, placed⟩
  exact ⟨result, found, placed.symm⟩

theorem Compact.renumberAll (h : t.Compact) (small : ∀ addr ∈ addrs, addr < 2 ^ addressBits) :
    ∀ result ∈ (t.renumberAll addrs).1, result < 2 ^ addressBits := by
  induction addrs generalizing t with
  | nil => nofun
  | cons addr addrs ih =>
      rcases List.forall_mem_cons.1 small with ⟨first, others⟩
      rcases h.renumber first with ⟨result_lt, compact⟩
      exact List.forall_mem_cons.2 ⟨result_lt, ih compact others⟩

/-! ## The order of first use -/

/-- Exactly the pages used have frames, which are the first numbers, are not shared, and are in the
order of first use. -/
structure Numbers (t : PageTable) (used : List Nat) : Prop where
  mem : ∀ page, (∃ frame, t.frame? page = some frame) ↔ page ∈ used
  dense : ∀ frame, (∃ page, t.frame? page = some frame) ↔ frame < t.pages.size
  injective : ∀ page page' frame, t.frame? page = some frame → t.frame? page' = some frame →
    page = page'
  order : ∀ page page' frame frame', t.frame? page = some frame → t.frame? page' = some frame' →
    (frame < frame' ↔ used.idxOf page < used.idxOf page')

theorem numbers_empty : Numbers {} [] where
  mem _ := iff_of_false nofun (List.not_mem_nil)
  dense _ := iff_of_false nofun (Nat.not_lt_zero _)
  injective _ _ _ has := by cases has
  order _ _ _ _ has := by cases has

theorem Numbers.missing_iff (h : t.Numbers used) : t.frame? page = none ↔ page ∉ used := by
  rw [← h.mem, ← Option.ne_none_iff_exists', not_not]

/-- Pages that were used before are in the order they were in. -/
theorem Numbers.order_concat (h : t.Numbers used) (has : t.frame? page = some frame)
    (has' : t.frame? page' = some frame') (last : Nat) :
    frame < frame' ↔ (used ++ [last]).idxOf page < (used ++ [last]).idxOf page' := by
  rw [List.idxOf_append_of_mem ((h.mem _).1 ⟨_, has⟩),
    List.idxOf_append_of_mem ((h.mem _).1 ⟨_, has'⟩)]
  exact h.order _ _ _ _ has has'

theorem Numbers.lt_size (h : t.Numbers used) (has : t.frame? page = some frame) :
    frame < t.pages.size := (h.dense frame).1 ⟨page, has⟩

/-- A new page comes into use behind all uses so far. -/
theorem Numbers.behind (h : t.Numbers used) (has : t.frame? page = some frame) {last : Nat}
    (fresh : last ∉ used) : (used ++ [last]).idxOf page < (used ++ [last]).idxOf last := by
  have before : page ∈ used := (h.mem page).1 ⟨frame, has⟩
  rw [List.idxOf_append_of_mem before, List.idxOf_append_of_notMem fresh]
  exact Nat.lt_add_right _ (List.idxOf_lt_length_of_mem before)

/-- A new page gets the number of pages before it. -/
theorem Numbers.insert (h : t.Numbers used) (missing : t.frame? page = none) :
    Numbers ⟨t.pages.insert page t.pages.size⟩ (used ++ [page]) := by
  have fresh : page ∉ used := h.missing_iff.1 missing
  have has_iff : ∀ other frame, frame? ⟨t.pages.insert page t.pages.size⟩ other = some frame ↔
      other = page ∧ frame = t.pages.size ∨ t.frame? other = some frame := by
    intro other frame
    rw [frame?_insert]
    by_cases same : other = page
    · subst same
      simp [missing, eq_comm]
    · simp [same]
  refine ⟨fun other => ?_, fun frame => ?_, fun p q frame hp hq => ?_,
    fun p q frame frame' hp hq => ?_⟩
  · simp only [has_iff, exists_or, h.mem, exists_and_left, exists_eq, and_true, List.mem_append,
      List.mem_singleton]
    exact or_comm
  · rw [Table.size_insert missing, Nat.lt_succ_iff_lt_or_eq]
    simp only [has_iff, exists_or, h.dense, exists_and_right, exists_eq, true_and]
    exact or_comm
  · rcases (has_iff _ _).1 hp with ⟨rfl, rfl⟩ | old
    · rcases (has_iff _ _).1 hq with ⟨rfl, _⟩ | old'
      · rfl
      · exact absurd (h.lt_size old') (Nat.lt_irrefl _)
    · rcases (has_iff _ _).1 hq with ⟨_, rfl⟩ | old'
      · exact absurd (h.lt_size old) (Nat.lt_irrefl _)
      · exact h.injective p q frame old old'
  · rcases (has_iff _ _).1 hp with ⟨rfl, rfl⟩ | old
    · rcases (has_iff _ _).1 hq with ⟨rfl, rfl⟩ | old'
      · exact iff_of_false (Nat.lt_irrefl _) (Nat.lt_irrefl _)
      · exact iff_of_false (Nat.lt_asymm (h.lt_size old')) (Nat.lt_asymm (h.behind old' fresh))
    · rcases (has_iff _ _).1 hq with ⟨rfl, rfl⟩ | old'
      · exact iff_of_true (h.lt_size old) (h.behind old fresh)
      · exact h.order_concat old old' _

/-- One more use: a page used before keeps its frame, and a new one gets the next number. -/
theorem Numbers.frameOf (h : t.Numbers used) (page : Nat) :
    (t.frameOf page).2.Numbers (used ++ [page]) := by
  rcases t.frameOf_cases page with ⟨frame, has, kept⟩ | ⟨missing, added⟩
  · have before : page ∈ used := (h.mem page).1 ⟨frame, has⟩
    rw [kept]
    refine ⟨fun other => ?_, h.dense, h.injective, fun p q f g has has' => h.order_concat has has' _⟩
    rw [h.mem, List.mem_append, List.mem_singleton]
    exact ⟨.inl, fun both => both.elim id fun same => same ▸ before⟩
  · rw [added]
    exact h.insert missing

theorem Numbers.renumberAll (h : t.Numbers used) (addrs : List Nat) :
    (t.renumberAll addrs).2.Numbers (used ++ addrs.map (· / frameSize)) := by
  induction addrs generalizing t used with
  | nil => rwa [List.map_nil, List.append_nil]
  | cons addr addrs ih =>
      have rest := ih (h.frameOf (addr / frameSize))
      rwa [List.append_assoc] at rest

theorem Numbers.place?_injective (h : t.Numbers used) {other result : Nat}
    (first : t.place? addr = some result) (second : t.place? other = some result) :
    addr = other := by
  rcases place?_eq_some_iff.1 first with ⟨frame, offset⟩
  rcases place?_eq_some_iff.1 second with ⟨frame', offset'⟩
  have page := h.injective _ _ _ frame frame'
  rw [← Nat.div_add_mod' addr frameSize, ← Nat.div_add_mod' other frameSize, page, ← offset,
    offset']

/-! ## Tables that start empty -/

/-- Renumbering is a stable and dense renaming.  After any calls, exactly the pages used have
frames; the frames are the first numbers, they tell the pages apart and are in the order of first
use.  Later calls change neither frames nor results.  Each address keeps its offset, gets the frame
of its page, and stays an address; and two calls have the same result if they have the same address,
and only then. -/
theorem renumberAll_stable {addrs more : List Nat}
    (small : ∀ addr ∈ addrs, addr < 2 ^ addressBits) :
    let now := renumberAll {} addrs
    let later := renumberAll {} (addrs ++ more)
    now.2.Numbers (addrs.map (· / frameSize)) ∧
      (∀ page frame, now.2.frame? page = some frame → later.2.frame? page = some frame) ∧
      now.1 <+: later.1 ∧ now.1.length = addrs.length ∧
      (∀ i addr : Nat, addrs[i]? = some addr → ∃ result : Nat, now.1[i]? = some result ∧
        now.2.frame? (addr / frameSize) = some (result / frameSize) ∧
        result % frameSize = addr % frameSize ∧ result < 2 ^ addressBits) ∧
      ∀ i < addrs.length, ∀ j < addrs.length,
        (now.1[i]? = now.1[j]? ↔ addrs[i]? = addrs[j]?) := by
  intro now later
  have numbers : now.2.Numbers (addrs.map (· / frameSize)) :=
    numbers_empty.renumberAll addrs
  have more_calls : later = (now.1 ++ (now.2.renumberAll more).1, (now.2.renumberAll more).2) :=
    renumberAll_append {} addrs more
  have addresses := compact_empty.renumberAll small
  refine ⟨numbers, fun page frame has => ?_, ?_, renumberAll_length {} addrs,
    fun i addr here => ?_, fun i hi j hj => ?_⟩
  · rw [more_calls]
    exact renumberAll_grows now.2 more page frame has
  · rw [more_calls]
    exact List.prefix_append _ _
  · rcases getElem?_renumberAll (t := {}) here with ⟨result, found, placed⟩
    rcases place?_eq_some_iff.1 placed with ⟨frame, offset⟩
    exact ⟨result, found, frame, offset, addresses _ (List.mem_of_getElem? found)⟩
  · have here := List.getElem?_eq_getElem hi
    have there := List.getElem?_eq_getElem hj
    rcases getElem?_renumberAll (t := {}) here with ⟨result, found, placed⟩
    rcases getElem?_renumberAll (t := {}) there with ⟨result', found', placed'⟩
    rw [found, found', here, there, Option.some.injEq, Option.some.injEq]
    constructor
    · rintro rfl
      exact numbers.place?_injective placed placed'
    · intro same
      rw [same, placed'] at placed
      exact (Option.some.inj placed).symm

/-- Two pages, and the greatest address. -/
theorem renumberAll_stable_twoPages :
    let addrs := [2 ^ 64 - 1, 4096, 2 ^ 64 - 4096]
    (∀ addr ∈ addrs, addr < 2 ^ addressBits) ∧ (renumberAll {} addrs).1 = [4095, 4096, 0] ∧
      (renumberAll {} addrs).2.Numbers [2 ^ 52 - 1, 1, 2 ^ 52 - 1] ∧
      (renumberAll {} (addrs ++ [4097])).2.frame? 1 = some 1 := by
  intro addrs
  have small : ∀ addr ∈ addrs, addr < 2 ^ addressBits := by decide
  rcases @renumberAll_stable addrs [4097] small with ⟨numbers, kept, _⟩
  exact ⟨small, by decide +kernel, numbers, kept 1 1 (by decide +kernel)⟩

end PageTable

end StackedCache
