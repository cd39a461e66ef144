import StackedCache.Proofs.Model.Reach
import StackedCache.Proofs.Relocation.Safety
import StackedCache.Proofs.Service.Idle
import StackedCache.Proofs.Service.Segments

/-!
# Segments with rows in banks out of use

A request to a cache of segments does not transfer the row of its address if the bank of the row is
out of use.  It does not ask for the banks of the other rows of the segment: the rows that it copies
are copied in banks out of use as well, and nothing but these copies comes to such a bank:
`run_copies`.
-/

namespace StackedCache

namespace Controller

variable {c : Controller} {s : Settings}

/-! ## Copies -/

/-- The rows of a bank that a request copies. -/
def copiedIn (c : Controller) (addr : Nat) (q : BankPlace) : List Location :=
  if c.avoids addr then [] else (c.copied addr).filter (·.place = q)

/-- A row that is copied is visited twice. -/
theorem requestsAt_copyVisits (c : Controller) (bytes : Nat) (rows : List Location) (q : BankPlace) :
    requestsAt (c.copyVisits bytes rows) q =
      (rows.filter (·.place = q)).length * (2 * c.stack.requestsFor bytes) := by
  induction rows with
  | nil => exact (Nat.zero_mul _).symm
  | cons row rows ih =>
      let visit : Visit := ⟨row, c.stack.requestsFor bytes⟩
      have both : c.copyVisits bytes (row :: rows) = visit :: visit :: c.copyVisits bytes rows := rfl
      rw [both, requestsAt_cons, requestsAt_cons, ih]
      by_cases here : row.place = q
      · simp only [visit, here, if_true, List.filter_cons, decide_true, List.length_cons,
          Nat.add_mul]
        omega
      · simp [visit, here]

/-- A bank out of use is visited to copy rows only. -/
theorem requestsAt_visits {q : BankPlace} (off : c.layer.disabled q = true) (size addr : Nat) :
    requestsAt (c.visits size addr) q =
      (c.copiedIn addr q).length * (2 * c.stack.requestsFor c.stack.rowSize) := by
  unfold visits copiedIn
  cases avoided : c.avoids addr with
  | true => simp [requestsAt]
  | false =>
      -- The bank of the address is in use, so it is another one.
      have elsewhere : (c.stack.locate addr).place ≠ q := by
        intro same
        rw [avoids, same, off] at avoided
        cases avoided
      simp only [Bool.false_eq_true, if_false]
      rw [requestsAt_append, requestsAt_copyVisits]
      simp [requestsAt, elsewhere]

theorem place_ne_of_copiedIn {q : BankPlace} {size addr : Nat} {v : Visit}
    (off : c.layer.disabled q = true) (none_copied : c.copiedIn addr q = [])
    (member : v ∈ c.visits size addr) : v.row.place ≠ q := by
  unfold visits at member
  unfold copiedIn at none_copied
  cases avoided : c.avoids addr with
  | true => simp [avoided] at member
  | false =>
      simp only [avoided, Bool.false_eq_true, if_false, List.mem_append, List.mem_singleton]
        at member none_copied
      -- Copied rows are not in the bank, and the bank of the address is in use.
      rcases member with copy | rfl
      · have row : v.row ∈ c.copied addr := by
          rcases List.mem_flatMap.1 copy with ⟨row, copied, visit⟩
          simp only [List.mem_cons, List.not_mem_nil, or_false, or_self] at visit
          rw [visit]
          exact copied
        intro here
        have found : v.row ∈ (c.copied addr).filter (·.place = q) :=
          List.mem_filter.2 ⟨row, decide_eq_true here⟩
        rw [none_copied] at found
        cases found
      · rintro rfl
        rw [avoids, off] at avoided
        cases avoided

/-! ## Banks out of use -/

/-- A request leaves the physical bank of a bank out of use alone, unless it copies rows of it. -/
theorem Sound.request_spares (h : c.Sound s) (whole : c.Whole s)
    (design : s.cache.design = .constant) (policy : s.relocation.policy ≠ .hybrid)
    {p q : BankPlace} (owner : c.layer.logicalPlace p = .ok q) (off : c.layer.disabled q = true)
    {addr : Nat} (none_copied : c.copiedIn (c.address addr) q = []) (time : Time) (size : Nat)
    (access : Access) :
    (c.request time size addr access).2.stack.bank? p = c.stack.bank? p := by
  refine (h.request_makes design time size addr access).stack p ?_
  -- A visited row on the physical bank of another bank would be redirected there.
  intro v member physical located here
  have ne := place_ne_of_copiedIn off none_copied member
  have redirected := Layer.redirects_of_logicalPlace h.layer located here owner ne.symm
  exact Layer.not_redirects (whole.rows policy) redirected

/-- The rows that a request copies in a bank out of use are all that is counted for the bank. -/
theorem Sound.request_counts_copies (h : c.Sound s) (design : s.cache.design = .constant)
    {q : BankPlace} (off : c.layer.disabled q = true) {time : Time} {size addr : Nat}
    {access : Access} (served : (c.request time size addr access).1.fault = none) :
    (Layer.entry? (c.request time size addr access).2.layer q).map Entry.accesses =
      (c.layer.entry? q).map fun e => e.accesses +
        (c.copiedIn (c.address addr) q).length * (2 * c.stack.requestsFor c.stack.rowSize) := by
  -- Drawing the consequences of relocation counts nothing.
  have settled : ∀ n, (c.settled.layer.entry? q).map (fun e => e.accesses + n) =
      (c.layer.entry? q).map fun e => e.accesses + n := by
    intro n
    rw [settled_layer]
    cases c.layer.pending with
    | false => rfl
    | true =>
        simp only [if_true, Layer.entry?, Layer.bank?_settle]
        have geometry : c.layer.settle.geometry = c.layer.geometry := rfl
        rw [geometry]
        split
        · rw [Option.map_map]
          rfl
        · rfl
  rw [(h.request_makes design time size addr access).layer served, Layer.accesses_recordAll,
    requestsAt_visits off, settled]

end Controller

namespace Model

variable {m : Model} {s : Settings}

/-- In a cache of segments, a request that does not fail is counted for a bank out of use twice for
each row of the bank that it copies, a row at a time, and not otherwise.  Where whole banks or vaults
move, the physical bank that a bank out of use is on changes only if rows of the bank are copied.
Requests do not fail if banks and rows are counted exactly. -/
theorem run_copies (start : ofSettings s = .ok m) (design : s.cache.design = .constant)
    (ops : List Operation) (time : Time) (size : Nat) (addr : UInt64) (access : Access)
    (q : BankPlace) :
    let c := (m.run ops).controller
    let r := c.request time size addr.toNat access
    let copies := c.copiedIn (c.address addr.toNat) q
    c.layer.disabled q = true →
      (s.stack.CountsFit → r.1.fault = none) ∧
      (r.1.fault = none → (Layer.entry? r.2.layer q).map Entry.accesses =
        (c.layer.entry? q).map fun e =>
          e.accesses + copies.length * (2 * c.stack.requestsFor c.stack.rowSize)) ∧
      (s.relocation.policy ≠ .hybrid → copies = [] →
        ∀ p, c.layer.logicalPlace p = .ok q → r.2.stack.bank? p = c.stack.bank? p) := by
  intro c r copies off
  rcases ofSettings_ok start with ⟨valid, rfl⟩
  have reached : c = (Controller.ofSettings s).run (passed s ops) := (run_controller _ ops).2
  have rest := Controller.ofSettings_sound valid
  have sound : c.Sound s := reached ▸ rest.run valid _
  have whole : c.Whole s := reached ▸ rest.run_whole valid ⟨rfl, fun _ => rfl⟩ _
  refine ⟨fun fits => ?_, sound.request_counts_copies design off, fun policy none_copied p owner =>
    sound.request_spares whole design policy owner off none_copied time size access⟩
  -- Tags are refused by sets only.
  have accepted : c.refuses (c.address addr.toNat) = false := by
    have segments : c.organisation.design = .constant := sound.design.trans design
    simp [Controller.refuses, segments]
  have fault := (Controller.request_responds valid sound addr.toNat_lt time size access).fault fits
  rw [accepted] at fault
  exact fault

/-- Two banks of two rows, and a segment of all four of them that changes its slot at every access. -/
def oneSegment : Settings where
  stack := { vaults := 1, vaultSize := 256, bankSize := 128, rowSize := 64 }
  cache := { design := .constant }
  segment := { fastMemory := 256, segmentSize := 256, swapCount := 1 }
  relocation := { policy := .disable }

/-- Operations that put a bank out of use. -/
def heated : List Operation := [.takeReading ⟨⟨0, 0⟩, ⟨96.0⟩⟩, .runEpoch]

/-- The first bank is out of use.  A request to the second bank goes to another slot and copies two
rows of the first one; a request to the same slot copies none. -/
theorem run_copies_hot :
    let m : Model := { settings := oneSegment, controller := .ofSettings oneSegment }
    let c := (m.run heated).controller
    let r (addr : UInt64) := c.request ⟨1000⟩ 64 addr.toNat .read
    ofSettings oneSegment = .ok m ∧ oneSegment.cache.design = .constant ∧
      oneSegment.stack.CountsFit ∧ oneSegment.relocation.policy ≠ .hybrid ∧
      c.layer.disabled ⟨0, 0⟩ = true ∧ c.layer.logicalPlace ⟨0, 0⟩ = .ok ⟨0, 0⟩ ∧
      (c.copiedIn (c.address (320 : UInt64).toNat) ⟨0, 0⟩).map Location.row = [0, 1] ∧
      (r 320).1.fault = none ∧
      (Layer.entry? (r 320).2.layer ⟨0, 0⟩).map Entry.accesses = some 4 ∧
      (r 64).2.stack.bank? ⟨0, 0⟩ = c.stack.bank? ⟨0, 0⟩ := by
  intro m
  have start : ofSettings oneSegment = .ok m := ofSettings_of_check (by decide +kernel)
  have fit : oneSegment.stack.CountsFit := ⟨by decide, by decide⟩
  have policy : oneSegment.relocation.policy ≠ .hybrid := by decide
  have counts := run_copies start rfl heated ⟨1000⟩ 64 320 .read ⟨0, 0⟩
  have spares := run_copies start rfl heated ⟨1000⟩ 64 64 .read ⟨0, 0⟩
  have held : (m.run heated).controller.layer.geometry.holds ⟨0, 0⟩ = true := by decide +kernel
  have here : (m.run heated).controller.layer.geometry.bankAt
      ((m.run heated).controller.layer.mapping.logicalOf
        ((m.run heated).controller.layer.geometry.bankId ⟨0, 0⟩)) = ⟨0, 0⟩ := by decide +kernel
  have owner := (Layer.logicalPlace_of_holds held).trans (congrArg Except.ok here)
  have off : (m.run heated).controller.layer.disabled ⟨0, 0⟩ = true := by decide +kernel
  have rows : ((m.run heated).controller.copiedIn
      ((m.run heated).controller.address (320 : UInt64).toNat) ⟨0, 0⟩).map Location.row = [0, 1] := by
    decide +kernel
  have none_copied : (m.run heated).controller.copiedIn
      ((m.run heated).controller.address (64 : UInt64).toNat) ⟨0, 0⟩ = [] := by decide +kernel
  have unused : (Layer.entry? (m.run heated).controller.layer ⟨0, 0⟩).map Entry.accesses = some 0 := by
    decide +kernel
  have one : (m.run heated).controller.stack.requestsFor
      (m.run heated).controller.stack.rowSize = 1 := by decide +kernel
  -- From here on it does not matter how the bank has come out of use.
  generalize (m.run heated).controller = c at counts spares owner off rows none_copied unused one ⊢
  rcases counts off with ⟨served, counted, _⟩
  have length : (c.copiedIn (c.address (320 : UInt64).toNat) ⟨0, 0⟩).length = 2 := by
    rw [← List.length_map Location.row, rows]
    rfl
  have four := counted (served fit)
  rw [length, one] at four
  have sum : (c.layer.entry? ⟨0, 0⟩).map (fun e => e.accesses + 2 * (2 * 1)) =
      ((c.layer.entry? ⟨0, 0⟩).map Entry.accesses).map (· + 4) := by
    rw [Option.map_map]
    rfl
  rw [sum, unused] at four
  exact ⟨start, rfl, fit, policy, off, owner, rows, served fit, four,
    (spares off).2.2 policy none_copied ⟨0, 0⟩ owner⟩

/-- The bank out of use does two reads and two writes for a request to the other one. -/
theorem copied_while_disabled :
    let m : Model := { settings := oneSegment, controller := .ofSettings oneSegment }
    let c := (m.run heated).controller
    let transfers (c : Controller) :=
      (c.stack.bank? ⟨0, 0⟩).map fun b => (b.activity.reads, b.activity.writes)
    ofSettings oneSegment = .ok m ∧ oneSegment.cache.design = .constant ∧
      oneSegment.relocation.policy = .disable ∧ c.layer.disabled ⟨0, 0⟩ = true ∧
      c.layer.logicalPlace ⟨0, 0⟩ = .ok ⟨0, 0⟩ ∧ (c.stack.locate 320).place = ⟨0, 1⟩ ∧
      transfers c = some (0, 0) ∧ transfers (c.request ⟨1000⟩ 64 320 .read).2 = some (2, 2) := by
  intro m c transfers
  have start : ofSettings oneSegment = .ok m := ofSettings_of_check (by decide +kernel)
  have held : c.layer.geometry.holds ⟨0, 0⟩ = true := by decide +kernel
  have here : c.layer.geometry.bankAt
      (c.layer.mapping.logicalOf (c.layer.geometry.bankId ⟨0, 0⟩)) = ⟨0, 0⟩ := by decide +kernel
  have owner := (Layer.logicalPlace_of_holds held).trans (congrArg Except.ok here)
  refine ⟨start, rfl, rfl, ?_, owner, ?_, ?_, ?_⟩ <;> decide +kernel

end Model

end StackedCache
