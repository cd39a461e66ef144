import StackedCache.Proofs.Service.Confinement
import StackedCache.Proofs.Service.Lookup
import StackedCache.Proofs.Stack.Again

/-!
# Requests that come again

A request that has been served can be had again: the bank it was served from offers its row, and the
set holds its block.  Until relocation runs or another request comes, nothing of that changes, so
the same request is a hit and does not fail, however the banks and rows of the stack were counted.
-/

namespace StackedCache

namespace Does

variable {α : Type} {c : Controller} {step : StackStep α} {Q : α → Stack → Prop}

/-- A step of the stack that succeeds. -/
theorem onStack_succeeds (done : Succeeds step c.stack Q) :
    Does (Service.onStack step) c
      (fun a c' => ∃ stack, c' = { c with stack := stack } ∧ Q a stack) fun _ _ => False := by
  intro elapsed
  rcases done with ⟨a, stack, run, holds⟩
  simp only [Service.onStack, run]
  exact ⟨stack, rfl, holds⟩

/-- A step of the stack that may fail. -/
theorem onStack_yields (done : Yields step c.stack Q) :
    Does (Service.onStack step) c
      (fun a c' => ∃ stack, c' = { c with stack := stack } ∧ Q a stack) fun _ _ => True := by
  intro elapsed
  simp only [Service.onStack]
  cases run : step c.stack with
  | ok a stack => exact ⟨stack, rfl, done a stack run⟩
  | error cause stack => trivial

/-- Nothing is claimed. -/
theorem trivial {β : Type} (m : Serving β) (c : Controller) :
    Does m c (fun _ _ => True) fun _ _ => True := by
  intro elapsed
  cases m ⟨c, elapsed⟩ <;> exact True.intro

end Does

/-- The bank that a row is on offers it. -/
def Controller.Reaches (row : Location) (c : Controller) : Prop :=
  ∃ physical, c.layer.physicalLocation row = .ok physical ∧ c.stack.Offers physical

namespace Service

variable {c : Controller} {s : Settings} {split : SplitAddress} {set set' : CacheSet}
  {access : Access} {row : Location}

/-- A transfer that is served can be had again. -/
theorem transfer_reaches (arrival : Time) (direction : Access) (bytes : Nat) (row : Location) :
    Does (transfer arrival direction bytes row) c (fun _ c' => c'.Reaches row) fun _ _ => True := by
  refine .get_bind ?_
  intro elapsed
  cases located : c.layer.physicalLocation row with
  | error cause => exact .refused_bind trivial
  | ok physical =>
      refine .attempt_bind (.bind (.onStack_yields
        (Stack.transfer_offers direction bytes physical (arrival + elapsed) c.stack)) ?_)
      rintro done _ ⟨stack, rfl, offers⟩
      refine .theController_bind ?_
      cases recorded : c.layer.recordAccess row done.requests with
      | error cause => exact .refused_bind trivial
      | ok layer =>
          have steady :=
            Layer.perform_of_recorded recorded ▸ c.layer.steady_recordAccess row done.requests
          refine .attempt_bind (.modifyController_bind (.charge ⟨physical, ?_, offers⟩))
          exact (steady.physicalLocation row).trans located

/-- A transfer that can be had again is served. -/
theorem transfer_again (h : c.Reaches row) (arrival : Time) (direction : Access) (bytes : Nat) :
    Does (transfer arrival direction bytes row) c (fun _ c' => c.Aside c' ∧ c'.Reaches row)
      fun _ _ => False := by
  rcases h with ⟨physical, located, offers⟩
  have again : Does (transfer arrival direction bytes row) c (fun _ _ => True)
      fun _ _ => False := by
    refine .get_bind ?_
    intro elapsed
    rw [located]
    refine .attempt_bind (.bind (.onStack_succeeds
      (offers.transfer direction bytes (arrival + elapsed))) ?_)
    rintro done _ ⟨stack, rfl, _⟩
    refine .theController_bind ?_
    have held : c.layer.geometry.holds row.place = true := by
      by_contra outside
      rw [Layer.physicalLocation_of_not_holds (by simpa using outside)] at located
      cases located
    have recorded : c.layer.recordAccess row done.requests =
        .ok (c.layer.perform (.recordAccess row done.requests)) := by
      simp only [Layer.perform, Layer.recordAccess, Layer.bankId?_of_holds held]
      rfl
    rw [recorded]
    exact .attempt_bind (.modifyController_bind (.charge trivial))
  refine (again.and ((transfer_aside arrival direction bytes row).and
    (transfer_reaches arrival direction bytes row))).mono ?_ ?_
  · exact fun _ c' done => done.2
  · exact fun _ _ failed => failed.1

/-- The last transfer of a request is out of the row of its set. -/
theorem serveBlock_reaches (held : c.sets[split.set]? = some set) (arrival : Time) (size : Nat) :
    Does (serveBlock arrival size split access) c (fun _ c' => c'.Reaches set.placement)
      fun _ _ => True := by
  refine .setAt_bind held (.bind (.trivial _ _) fun _ _ _ => ?_)
  refine .bind (.trivial _ _) fun _ _ _ => .bind (.trivial _ _) fun _ _ _ => .ite (fun _ => ?_) ?_
  · refine .bind (.trivial _ _) fun _ _ _ => .bind (.trivial _ _) fun _ _ _ => ?_
    refine .theController_bind (.bind (.trivial _ _) fun _ _ _ => .load_bind (.stream_bind ?_))
    exact transfer_reaches _ _ _ _
  · exact fun _ => transfer_reaches _ _ _ _

theorem servePage_reaches (held : c.sets[split.set]? = some set) (arrival : Time) :
    Does (servePage arrival split access) c (fun _ c' => c'.Reaches set.placement)
      fun _ _ => True := by
  refine .theController_bind (.setAt_bind held (.bind (.trivial _ _) fun _ _ _ => ?_))
  refine .bind (.trivial _ _) fun _ _ _ => .bind (.trivial _ _) fun _ _ _ => ?_
  split
  · exact transfer_reaches _ _ _ _
  · exact .bind (.trivial _ _) fun _ _ _ => .load_bind (transfer_reaches _ _ _ _)
  · refine .bind (.trivial _ _) fun _ _ _ => .bind (.trivial _ _) fun _ _ _ => ?_
    exact .load_bind (.stream_bind (transfer_reaches _ _ _ _))

/-- A hit on a row that can be had again is served. -/
theorem serveBlock_again (held : c.sets[split.set]? = some set)
    (hit : set.access access split.tag 0 = (.hit, set')) (h : c.Reaches set.placement)
    (arrival : Time) (size : Nat) :
    Does (serveBlock arrival size split access) c (fun _ _ => True) fun _ _ => False := by
  refine .setAt_bind held (.bind (transfer_again h _ _ _) ?_)
  rintro _ c₁ ⟨aside, reaches⟩
  refine .setAt_bind (aside.sets ▸ held) ?_
  have stored : Controller.Reaches set.placement
      { c₁ with sets := c₁.sets.setIfInBounds split.set set' } := reaches
  rw [hit]
  refine .storeSet_bind ?_
  rw [if_neg nofun]
  exact (transfer_again stored _ _ _).mono (fun _ _ _ => trivial) fun _ _ failed => failed

theorem servePage_again (held : c.sets[split.set]? = some set)
    (hit : set.access access split.tag (split.offset / c.blockSize) = (.hit, set'))
    (h : c.Reaches set.placement) (arrival : Time) :
    Does (servePage arrival split access) c (fun _ _ => True) fun _ _ => False := by
  refine .theController_bind (.setAt_bind held (.bind (transfer_again h _ _ _) ?_))
  rintro _ c₁ ⟨aside, reaches⟩
  refine .setAt_bind (aside.sets ▸ held) ?_
  have stored : Controller.Reaches set.placement
      { c₁ with sets := c₁.sets.setIfInBounds split.set set' } := reaches
  rw [hit]
  refine .storeSet_bind ?_
  exact (transfer_again stored _ _ _).mono (fun _ _ _ => trivial) fun _ _ failed => failed

/-- A request to a set can be had again once it has been served. -/
theorem serveSet_reaches (held : c.sets[split.set]? = some set) (o : Organisation)
    (arrival : Time) (size : Nat) :
    Does (serveSet o arrival size split access) c (fun _ c' => c'.Reaches set.placement)
      fun _ _ => True := by
  cases o with
  | pages _ => exact servePage_reaches held arrival
  | blocks => exact serveBlock_reaches held arrival size
  | segments _ => exact serveBlock_reaches held arrival size

theorem serveSet_again {o : Organisation} (held : c.sets[split.set]? = some set)
    (hit : set.access access split.tag (o.wanted c.blockSize split.offset) = (.hit, set'))
    (h : c.Reaches set.placement) (arrival : Time) (size : Nat) :
    Does (serveSet o arrival size split access) c (fun _ _ => True) fun _ _ => False := by
  cases o with
  | pages _ => exact servePage_again held hit h arrival
  | blocks => exact serveBlock_again held hit h arrival size
  | segments _ => exact serveBlock_again held hit h arrival size

end Service

namespace Controller

variable {c c' : Controller} {s : Settings} {addr : Nat} {set : CacheSet} {row : Location}

/-! ## Whole requests -/

theorem Sound.request_reaches (h : c.Sound s) (design : s.cache.design ≠ .constant)
    (small : addr < 2 ^ addressBits) (held : c.settled.sets[(c.splitOf addr).set]? = some set)
    (used : c.layer.disabled set.placement.place = false) {time : Time} {size : Nat}
    {access : Access} (served : (c.request time size addr access).1.fault = none) :
    (c.request time size addr access).2.Reaches set.placement := by
  have reached := h.request_sets (Q := Reaches set.placement) (E := fun _ _ => True) design small
    held time size access (fun gone => absurd gone (by simp [used])) fun _ c₁ enters _ =>
      Service.serveSet_reaches (by rw [enters.sets]; exact held) _ _ _
  rw [served] at reached
  exact reached

/-- Relocation is no concern of the stack, and its consequences are no concern of the mapping. -/
theorem Reaches.of_drawn {c₁ : Controller} (h : c.Reaches row) (drawn : c.Drawn c₁) :
    c₁.Reaches row := by
  rcases h with ⟨physical, located, offers⟩
  refine ⟨physical, ?_, drawn.stack ▸ offers⟩
  rw [← located, drawn.layer]
  unfold Layer.physicalLocation Layer.bankId? Layer.geometry
  rw [settled_mapping]

/-- A set is asked for a block that it tracks. -/
theorem Sound.blockOf_wanted (valid : s.Valid) (h : c.Sound s) (design : s.cache.design ≠ .constant)
    (fits : set.Fits s) (addr : Nat) :
    set.blockOf (c.wanted addr) = c.wanted addr ∧ c.wanted addr < maxBlocks := by
  have kind := fits.kind
  unfold wanted
  cases organised : c.organisation with
  | segments _ => exact absurd (by rw [← h.design, organised]; rfl) design
  | blocks => exact ⟨set.blockOf_zero, Nat.zero_lt_succ 63⟩
  | pages history =>
      have unison : s.cache.design = .unison := by rw [← h.design, organised]; rfl
      rw [unison, if_neg nofun] at kind
      refine ⟨?_, h.block_lt valid unison (c.address addr)⟩
      simp [CacheSet.blockOf, kind, SetKind.tracksBlocks]

/-- A hit on a row that can be had again is served. -/
theorem Sound.request_again (valid : s.Valid) (h : c.Sound s) (design : s.cache.design ≠ .constant)
    (small : addr < 2 ^ addressBits) (held : c.settled.sets[(c.splitOf addr).set]? = some set)
    (reaches : c.Reaches set.placement)
    (hit : set.shelf.find (c.splitOf addr).tag (c.wanted addr) = .hit) (time : Time) (size : Nat)
    (access : Access) : (c.request time size addr access).1.fault = none := by
  have fits := h.settled.stored.fits _ set held
  rcases h.blockOf_wanted valid design fits addr with ⟨asked, tracked⟩
  have accessed : ∃ set', set.access access (c.splitOf addr).tag (c.wanted addr) = (.hit, set') := by
    cases lookup : set.find? (c.splitOf addr).tag with
    | none =>
        rw [Shelf.find, CacheSet.lookup_shelf_of_find? lookup] at hit
        cases hit
    | some way =>
        obtain ⟨found, set', accessed, _, answers⟩ :=
          fits.coherent.access_answers lookup (asked.symm ▸ tracked) access ∅
        rw [asked] at answers
        exact ⟨set', by rw [accessed, answers.serves.found_eq, hit]⟩
  rcases accessed with ⟨set', accessed⟩
  have again := h.request_sets (Q := fun _ => True) (E := fun _ _ => False) design small held time
    size access (fun _ _ _ => trivial) fun _ c₁ enters _ => by
      have wanted : c.organisation.wanted c₁.blockSize (c.splitOf addr).offset = c.wanted addr := by
        rw [enters.blockSize, Controller.wanted]
      exact Service.serveSet_again (by rw [enters.sets]; exact held) (wanted.symm ▸ accessed)
        (reaches.of_drawn enters.toDrawn) _ _
  cases failed : (c.request time size addr access).1.fault with
  | none => rfl
  | some fault =>
      rw [failed] at again
      exact again.elim

end Controller

end StackedCache
