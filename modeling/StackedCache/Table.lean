/-!
# Tables with ascending keys

A `Table` is a list of keys and values in ascending order of the keys, so that going through it is
going through it in order.  Sets of numbers are ascending lists.
-/

namespace StackedCache

/-- Values under natural numbers, listed by ascending key. -/
abbrev Table (α : Type) := List (Nat × α)

namespace Table

variable {α : Type}

def keys (t : Table α) : List Nat := t.map Prod.fst

def size (t : Table α) : Nat := t.length

/-- The value under a key. -/
def find? : Table α → Nat → Option α
  | [], _ => none
  | (k, v) :: t, key => if key = k then some v else find? t key

/-- Puts a value under a key, in place of the one that was there. -/
def insert : Table α → Nat → α → Table α
  | [], key, value => [(key, value)]
  | (k, v) :: t, key, value =>
      if key < k then (key, value) :: (k, v) :: t
      else if key = k then (key, value) :: t
      else (k, v) :: insert t key value

/-- A value under a new key makes the table larger. -/
theorem size_insert {t : Table α} {key : Nat} (missing : t.find? key = none) (value : α) :
    (t.insert key value).size = t.size + 1 := by
  induction t with
  | nil => rfl
  | cons first t ih =>
      rcases first with ⟨k, v⟩
      unfold find? at missing
      split at missing
      · cases missing
      · rename_i other
        unfold insert
        rw [if_neg other]
        split
        · rfl
        · exact congrArg Nat.succ (ih missing)

/-- Keys ascend strictly. -/
def Ascending (t : Table α) : Prop := t.keys.Pairwise (· < ·)

theorem find?_insert (t : Table α) (key other : Nat) (value : α) :
    (t.insert key value).find? other = if other = key then some value else t.find? other := by
  induction t with
  | nil => simp [insert, find?]
  | cons first t ih => grind [insert, find?]

theorem mem_keys_insert (t : Table α) (key other : Nat) (value : α) :
    other ∈ (t.insert key value).keys ↔ other = key ∨ other ∈ t.keys := by
  induction t with
  | nil => simp [insert, keys]
  | cons first t ih =>
      rcases first with ⟨k, v⟩
      simp only [keys] at ih ⊢
      unfold insert
      split
      · simp
      · split
        · rename_i eq
          subst eq
          simp
        · simp only [List.map_cons, List.mem_cons, ih]
          grind

theorem Ascending.insert {t : Table α} (h : t.Ascending) (key : Nat) (value : α) :
    Ascending (Table.insert t key value) := by
  induction t with
  | nil => simp [Table.insert, Ascending, keys]
  | cons first t ih =>
      rcases first with ⟨k, v⟩
      have rest : Ascending t := by
        simp only [Ascending, keys, List.map_cons, List.pairwise_cons] at h ⊢
        exact h.2
      have after := h
      simp only [Ascending, keys, List.map_cons, List.pairwise_cons] at after
      unfold Table.insert
      split
      · simp only [Ascending, keys, List.map_cons, List.pairwise_cons, List.mem_cons]
        refine ⟨fun other at_ => ?_, after⟩
        rcases at_ with at_ | at_
        · omega
        · have := after.1 other at_
          omega
      · split
        · rename_i eq
          subst eq
          exact h
        · simp only [Ascending, keys, List.map_cons, List.pairwise_cons]
          refine ⟨fun other at_ => ?_, ih rest⟩
          rcases (mem_keys_insert t key other value).1 at_ with eq | at_
          · omega
          · exact after.1 other at_

theorem mem_of_find? {t : Table α} {key : Nat} {value : α} (h : t.find? key = some value) :
    (key, value) ∈ t := by
  induction t with
  | nil => cases h
  | cons first t ih =>
      rcases first with ⟨k, v⟩
      unfold find? at h
      split at h
      · rename_i eq
        cases h
        simp [eq]
      · exact List.mem_cons_of_mem _ (ih h)

/-- In a table without repeated keys, every value is the one under its key. -/
theorem find?_of_mem {t : Table α} (h : t.Ascending) {key : Nat} {value : α}
    (member : (key, value) ∈ t) : t.find? key = some value := by
  induction t with
  | nil => cases member
  | cons first t ih =>
      rcases first with ⟨k, v⟩
      simp only [Ascending, keys, List.map_cons, List.pairwise_cons] at h
      rcases List.mem_cons.1 member with same | later
      · cases same
        exact if_pos rfl
      · have above := h.1 key (List.mem_map.2 ⟨_, later, rfl⟩)
        rw [find?, if_neg (Nat.ne_of_gt above)]
        exact ih h.2 later

theorem mem_of_mem_insert {t : Table α} {key : Nat} {value : α} {entry : Nat × α}
    (h : entry ∈ t.insert key value) : entry = (key, value) ∨ entry ∈ t := by
  induction t with
  | nil => simpa [insert] using h
  | cons first t ih => grind [insert]

theorem Ascending.filter {t : Table α} (h : t.Ascending) (keep : Nat × α → Bool) :
    Ascending (List.filter keep t) := by
  have sublist : ((List.filter keep t).map Prod.fst).Sublist (t.map Prod.fst) :=
    List.filter_sublist.map Prod.fst
  exact List.Pairwise.sublist sublist h

/-- In a table without repeated keys, a filter keeps or drops the one value of a key. -/
theorem find?_filter {t : Table α} (h : t.Ascending) (keep : Nat × α → Bool) (key : Nat) :
    find? (List.filter keep t) key = (t.find? key).filter fun v => keep (key, v) := by
  induction t with
  | nil => rfl
  | cons first t ih =>
      rcases first with ⟨k, v⟩
      have after := h
      simp only [Ascending, keys, List.map_cons, List.pairwise_cons] at after
      have rest := ih after.2
      by_cases hk : k = key
      · subst hk
        have absent : find? t k = none := by
          cases found : find? t k with
          | none => rfl
          | some w =>
              have := after.1 k (List.mem_map.2 ⟨(k, w), mem_of_find? found, rfl⟩)
              omega
        rw [absent] at rest
        cases hkeep : keep (k, v) <;> simp [find?, hkeep, rest, Option.filter]
      · have hne : ¬key = k := fun eq => hk eq.symm
        cases hkeep : keep (k, v) <;> simp [find?, hkeep, rest, hne]

end Table

/-- Puts a number into an ascending list, unless it is there. -/
def insertAscending (n : Nat) : List Nat → List Nat
  | [] => [n]
  | m :: ms => if n < m then n :: m :: ms else if n = m then m :: ms else m :: insertAscending n ms

theorem mem_insertAscending (n m : Nat) (ms : List Nat) :
    m ∈ insertAscending n ms ↔ m = n ∨ m ∈ ms := by
  induction ms with
  | nil => simp [insertAscending]
  | cons k ms ih =>
      unfold insertAscending
      split
      · simp
      · split
        · rename_i eq
          subst eq
          simp
        · simp only [List.mem_cons, ih]
          grind

end StackedCache
