import Mathlib.Data.List.Perm.Subperm
import StackedCache.Proofs.Relocation.Reach
import StackedCache.Proofs.Settings.Valid
import StackedCache.Proofs.Stack.Ready
import StackedCache.Service.Request

/-!
# Steps of a request

A request is served in steps, and each of them may fail.  `Does` says what holds of the controller
after a step, with its result, and what holds of it after a failure, with the fault.

`Framed` is what all steps of a request keep: everything of a controller but its sets and counters.
In a framed controller a transfer fails only if banks or rows of the stack were not counted exactly.
-/

namespace StackedCache

/-! ## Page tables -/

namespace PageTable

variable {t : PageTable} {addr page : Nat}

/-- The number of pages of all addresses. -/
def pageLimit : Nat := 2 ^ addressBits / frameSize

/-- The frame of a page, if it has one. -/
def frame? (t : PageTable) (page : Nat) : Option Nat := t.pages.find? page

/-- A page has its frame, or it gets the next one. -/
theorem frameOf_cases (t : PageTable) (page : Nat) :
    (∃ frame, t.frame? page = some frame ∧ t.frameOf page = (frame, t)) ∨
      (t.frame? page = none ∧
        t.frameOf page = (t.pages.size, ⟨t.pages.insert page t.pages.size⟩)) := by
  unfold frameOf
  cases found : t.pages.find? page with
  | some frame => exact .inl ⟨frame, found, rfl⟩
  | none => exact .inr ⟨found, rfl⟩

/-- All pages are pages of addresses, and frames are smaller than the number of pages. -/
structure Compact (t : PageTable) : Prop where
  ascending : t.pages.Ascending
  small : ∀ page ∈ t.pages.keys, page < pageLimit
  dense : ∀ page frame, t.frame? page = some frame → frame < t.pages.size

theorem compact_empty : Compact {} where
  ascending := List.Pairwise.nil
  small _ has := by cases has
  dense _ _ has := by cases has

/-- There are no more frames than pages. -/
theorem Compact.size_le (h : t.Compact) : t.pages.size ≤ pageLimit := by
  have nodup : t.pages.keys.Nodup := h.ascending.imp Nat.ne_of_lt
  have subset : t.pages.keys ⊆ List.range pageLimit := fun page hpage =>
    List.mem_range.2 (h.small page hpage)
  simpa [Table.keys, Table.size] using (List.subperm_of_subset nodup subset).length_le

theorem Compact.frameOf (h : t.Compact) (small : page < pageLimit) :
    (t.frameOf page).1 < pageLimit ∧ (t.frameOf page).2.Compact := by
  rcases t.frameOf_cases page with ⟨frame, has, kept⟩ | ⟨missing, added⟩
  · rw [kept]
    exact ⟨Nat.lt_of_lt_of_le (h.dense page frame has) h.size_le, h⟩
  · have size := Table.size_insert missing t.pages.size
    have grown : Compact ⟨t.pages.insert page t.pages.size⟩ := by
      refine ⟨h.ascending.insert _ _, fun other key => ?_, fun other frame has => ?_⟩
      · rcases (Table.mem_keys_insert _ _ _ _).1 key with rfl | key
        · exact small
        · exact h.small other key
      · rw [frame?, Table.find?_insert] at has
        rw [size]
        split at has
        · cases has
          exact Nat.lt_succ_self _
        · exact Nat.lt_succ_of_lt (h.dense other frame has)
    -- The new frame is the last one, and even with it there are no more frames than pages.
    have room := grown.size_le
    rw [size] at room
    rw [added]
    exact ⟨room, grown⟩

/-- Renumbered addresses are addresses. -/
theorem Compact.renumber (h : t.Compact) (small : addr < 2 ^ addressBits) :
    (t.renumber addr).1 < 2 ^ addressBits ∧ (t.renumber addr).2.Compact := by
  have page : addr / frameSize < pageLimit := by
    simp only [pageLimit, frameSize, addressBits] at *
    omega
  rcases h.frameOf page with ⟨frame_lt, compact⟩
  refine ⟨?_, compact⟩
  calc
    (t.frameOf (addr / frameSize)).1 * frameSize + addr % frameSize
        < (t.frameOf (addr / frameSize)).1 * frameSize + frameSize :=
          Nat.add_lt_add_left (Nat.mod_lt _ (by decide)) _
    _ = ((t.frameOf (addr / frameSize)).1 + 1) * frameSize := (Nat.succ_mul _ _).symm
    _ ≤ pageLimit * frameSize := Nat.mul_le_mul_right _ frame_lt
    _ = 2 ^ addressBits := by decide

end PageTable

/-! ## Controllers between steps -/

/-- Bytes of a line. -/
def CacheSettings.lineBytes (s : CacheSettings) : Nat :=
  if s.design = .unison then s.pageSize.toNat else s.blockSize.toNat

namespace Controller

variable {c c' c'' : Controller} {s : Settings}

/-- What all steps keep of a controller with the given settings. -/
structure Framed (s : Settings) (c : Controller) : Prop where
  layer : c.layer.Sound
  geometry : c.layer.geometry = .ofSettings s.stack
  /-- The stack serves all requests if its banks and rows were counted exactly. -/
  stack : s.stack.CountsFit → c.stack.Ready (.ofSettings s.stack)
  design : c.organisation.design = s.cache.design
  splitter : c.splitter = .ofSizes s.cache.lineBytes s.cache.sets.toNat
  blockSize : c.blockSize = s.cache.blockSize.toNat
  pageTable : ∀ t, c.pageTable = some t → t.Compact

/-- Nothing has happened to the sets, nor to the counters of their blocks. -/
structure Beside (c c' : Controller) : Prop where
  sets : c'.sets = c.sets
  writebackBlocks : c'.counts.writebackBlocks = c.counts.writebackBlocks
  loadedBlocks : c'.counts.loadedBlocks = c.counts.loadedBlocks
  invalidatedBlocks : c'.counts.invalidatedBlocks = c.counts.invalidatedBlocks

theorem Beside.rfl : c.Beside c := ⟨Eq.refl _, Eq.refl _, Eq.refl _, Eq.refl _⟩

theorem Beside.trans (h : c.Beside c') (h' : c'.Beside c'') : c.Beside c'' :=
  ⟨h'.sets.trans h.sets, h'.writebackBlocks.trans h.writebackBlocks,
    h'.loadedBlocks.trans h.loadedBlocks, h'.invalidatedBlocks.trans h.invalidatedBlocks⟩

/-- Counting keeps the frame. -/
theorem Framed.modifyCounts (h : c.Framed s) (f : CacheCounts → CacheCounts) :
    (c.modifyCounts f).Framed s :=
  ⟨h.layer, h.geometry, h.stack, h.design, h.splitter, h.blockSize, h.pageTable⟩

theorem Framed.withSets (h : c.Framed s) (sets : Array CacheSet) :
    Framed s { c with sets := sets } :=
  ⟨h.layer, h.geometry, h.stack, h.design, h.splitter, h.blockSize, h.pageTable⟩

theorem Framed.withOrganisation {o : Organisation} (h : c.Framed s)
    (design : o.design = c.organisation.design) : Framed s { c with organisation := o } :=
  ⟨h.layer, h.geometry, h.stack, design.trans h.design, h.splitter, h.blockSize, h.pageTable⟩

theorem Framed.withStack {stack : Stack} (h : c.Framed s)
    (ready : s.stack.CountsFit → stack.Ready (.ofSettings s.stack)) :
    Framed s { c with stack := stack } :=
  ⟨h.layer, h.geometry, ready, h.design, h.splitter, h.blockSize, h.pageTable⟩

/-- Operations of the relocation layer keep the frame. -/
theorem Framed.perform (h : c.Framed s) (op : Layer.Operation) :
    Framed s { c with layer := c.layer.perform op } :=
  ⟨Layer.perform_sound h.layer op, (Layer.perform_geometry h.layer op).trans h.geometry, h.stack,
    h.design, h.splitter, h.blockSize, h.pageTable⟩

end Controller

/-! ## Steps -/

/-- The step leads to a result and a controller in `Q`, or to a fault and a controller in `E`. -/
def Does {α : Type} (m : Serving α) (c : Controller) (Q : α → Controller → Prop)
    (E : Fault → Controller → Prop) : Prop :=
  ∀ elapsed, match m ⟨c, elapsed⟩ with
    | .ok a s => Q a s.controller
    | .error fault s => E fault s.controller

namespace Does

variable {α β : Type} {m : Serving α} {f : α → Serving β} {c : Controller}
  {P Q : α → Controller → Prop} {R : β → Controller → Prop} {E E' : Fault → Controller → Prop}

theorem pure {a : α} (h : Q a c) : Does (Pure.pure a : Serving α) c Q E := fun _ => h

theorem bind (first : Does m c P E) (rest : ∀ a c', P a c' → Does (f a) c' R E) :
    Does (m >>= f) c R E := by
  -- The time that has passed is no part of any condition, and is carried through.
  intro elapsed
  have h := first elapsed
  cases run : m ⟨c, elapsed⟩ with
  | ok a s =>
      rw [run] at h
      rw [bind_of_ok run]
      exact rest a s.controller h s.elapsed
  | error fault s =>
      rw [run] at h
      rw [bind_of_error run]
      exact h

theorem mono (h : Does m c P E) (result : ∀ a c', P a c' → Q a c')
    (failure : ∀ fault c', E fault c' → E' fault c') : Does m c Q E' := by
  intro elapsed
  have done := h elapsed
  cases run : m ⟨c, elapsed⟩ with
  | ok a s =>
      rw [run] at done
      exact result a _ done
  | error fault s =>
      rw [run] at done
      exact failure fault _ done

/-- What holds afterwards may be shown in parts. -/
theorem and (first : Does m c P E) (second : Does m c Q E') :
    Does m c (fun a c' => P a c' ∧ Q a c') fun fault c' => E fault c' ∧ E' fault c' := by
  intro elapsed
  have first := first elapsed
  have second := second elapsed
  cases run : m ⟨c, elapsed⟩ with
  | ok a s =>
      rw [run] at first second
      exact ⟨first, second⟩
  | error fault s =>
      rw [run] at first second
      exact ⟨first, second⟩

theorem ite {p : Prop} [Decidable p] {m' : Serving α} (yes : p → Does m c Q E)
    (no : ¬p → Does m' c Q E) : Does (if p then m else m') c Q E := by
  by_cases hp : p
  · rw [if_pos hp]
    exact yes hp
  · rw [if_neg hp]
    exact no hp

theorem theController_bind {f : Controller → Serving β} (h : Does (f c) c R E) :
    Does (Service.theController >>= f) c R E := h

theorem modifyController {g : Controller → Controller} {Q : Unit → Controller → Prop}
    (h : Q () (g c)) : Does (Service.modifyController g) c Q E := fun _ => h

theorem modifyController_bind {g : Controller → Controller} {f : Unit → Serving β}
    (h : Does (f ()) (g c) R E) : Does (Service.modifyController g >>= f) c R E := h

theorem count_bind {g : CacheCounts → CacheCounts} {f : Unit → Serving β}
    (h : Does (f ()) (c.modifyCounts g) R E) : Does (Service.count g >>= f) c R E := h

theorem storeSet_bind {index : Nat} {set : CacheSet} {f : Unit → Serving β}
    (h : Does (f ()) { c with sets := c.sets.setIfInBounds index set } R E) :
    Does (Service.storeSet index set >>= f) c R E := h

theorem setAt_bind {index : Nat} {set : CacheSet} {f : CacheSet → Serving β}
    (found : c.sets[index]? = some set) (h : Does (f set) c R E) :
    Does (Service.setAt index >>= f) c R E := by
  have taken : Does (Service.setAt index) c (fun a c' => a = set ∧ c' = c) E := by
    unfold Service.setAt
    apply theController_bind
    simp only [Controller.set?, found]
    exact pure ⟨rfl, rfl⟩
  apply taken.bind
  rintro _ _ ⟨rfl, rfl⟩
  exact h

theorem charge {t : Time} {Q : Unit → Controller → Prop} (h : Q () c) :
    Does (Service.charge t) c Q E := fun _ => h

theorem charge_bind {t : Time} {f : Unit → Serving β} (h : Does (f ()) c R E) :
    Does (Service.charge t >>= f) c R E := fun _ => h _

theorem load_bind {bytes : Nat} {f : Unit → Serving β} (h : Does (f ()) c R E) :
    Does (Service.load bytes >>= f) c R E := fun _ => h _

theorem stream_bind {bytes : Nat} {f : Unit → Serving β} (h : Does (f ()) c R E) :
    Does (Service.stream bytes >>= f) c R E := fun _ => h _

theorem get_bind {f : Service → Serving β} (h : ∀ elapsed, Does (f ⟨c, elapsed⟩) c R E) :
    Does (get >>= f) c R E := fun elapsed => h elapsed elapsed

/-- An operation that is not refused. -/
theorem attempt_bind {ε : Type} {wrap : ε → Fault} {a : α} (h : Does (f a) c R E) :
    Does (Service.attempt wrap (.ok a) >>= f) c R E := h

/-- An operation that is refused. -/
theorem refused_bind {ε : Type} {wrap : ε → Fault} {cause : ε} (h : E (wrap cause) c) :
    Does (Service.attempt wrap (.error cause : Except ε α) >>= f) c R E := fun _ => h

/-- A step of the stack changes the stack only. -/
theorem onStack {step : StackStep α} {fits : Prop} {g : Geometry}
    (works : fits → Succeeds step c.stack fun _ stack => stack.Ready g) :
    Does (Service.onStack step) c
      (fun _ c' => ∃ stack, c' = { c with stack := stack } ∧ (fits → stack.Ready g))
      (fun _ c' => (∃ stack, c' = { c with stack := stack }) ∧ ¬fits) := by
  intro elapsed
  simp only [Service.onStack]
  cases run : step c.stack with
  | ok a stack =>
      refine ⟨stack, rfl, ?_⟩
      intro h
      rcases works h with ⟨a', stack', run', ready⟩
      rw [run] at run'
      cases run'
      exact ready
  -- The stack may have changed before it refused, so only its readiness is lost.
  | error cause stack =>
      refine ⟨⟨stack, rfl⟩, ?_⟩
      intro h
      rcases works h with ⟨a', stack', run', _⟩
      rw [run] at run'
      cases run'

end Does

/-- Every row of a bank of the stack is somewhere in the stack. -/
theorem Layer.Sound.exists_physicalLocation {l : Layer} {row : Location} (h : l.Sound)
    (held : l.geometry.holds row.place = true) :
    ∃ q, l.physicalLocation row = .ok q ∧ l.geometry.holds q.place = true ∧ q.row = row.row :=
  ⟨_, physicalLocation_of_holds held,
    Geometry.holds_bankAt (h.mapping.physicalOfRow_lt (bankId_lt held)), rfl⟩

namespace Controller

variable {c : Controller} {s : Settings} {row : Location}

/-- If banks and rows were counted exactly, the stack has this row. -/
def HasRow (s : Settings) (row : Location) : Prop :=
  s.stack.CountsFit → (Geometry.ofSettings s.stack).holds row.place = true ∧
    row.row < (Geometry.ofSettings s.stack).rows

/-- A transfer keeps the frame and does not touch the sets.  It fails only if banks or rows were not
counted exactly. -/
theorem Framed.transfer (h : c.Framed s) (has : HasRow s row) (arrival : Time) (access : Access)
    (bytes : Nat) :
    Does (Service.transfer arrival access bytes row) c
      (fun _ c' => c'.Framed s ∧ c.Beside c')
      (fun _ c' => c'.Framed s ∧ c.Beside c' ∧ ¬s.stack.CountsFit) := by
  refine .get_bind ?_
  intro elapsed
  -- A row outside the stack is refused by the layer, before the stack is asked.
  cases held : c.layer.geometry.holds row.place with
  | false =>
      rw [Layer.physicalLocation_of_not_holds held]
      refine .refused_bind ⟨h, .rfl, ?_⟩
      intro fits
      rw [h.geometry, (has fits).1] at held
      cases held
  | true =>
      -- The layer that has found the row's place also counts the requests for it.
      have recorded : ∀ n, c.layer.recordAccess row n =
          .ok (c.layer.perform (.recordAccess row n)) := by
        intro n
        simp only [Layer.perform, Layer.recordAccess, Layer.bankId?_of_holds held]
        rfl
      rcases h.layer.exists_physicalLocation held with ⟨physical, located, place, same⟩
      rw [h.geometry] at place
      have works : s.stack.CountsFit → Succeeds
          (Stack.transfer access bytes physical (arrival + elapsed)) c.stack
          fun _ stack => stack.Ready (.ofSettings s.stack) :=
        fun fits => Stack.transfer_succeeds access bytes (h.stack fits) place (same ▸ (has fits).2)
      rw [located]
      refine .attempt_bind (.bind (.mono (.onStack works) (fun _ _ done => done) ?_) ?_)
      -- Nothing needs to hold of a stack that was not as the settings say.
      · rintro _ c' ⟨⟨stack, rfl⟩, unfit⟩
        exact ⟨h.withStack fun fits => absurd fits unfit, ⟨rfl, rfl, rfl, rfl⟩, unfit⟩
      · rintro done c' ⟨stack, rfl, ready⟩
        refine .theController_bind ?_
        rw [recorded]
        refine .attempt_bind ?_
        refine Does.bind (P := fun _ c' => c'.Framed s ∧ c.Beside c') (.modifyController ?_) ?_
        · have recording := (h.withStack ready).perform (.recordAccess row done.requests)
          exact ⟨recording, rfl, rfl, rfl, rfl⟩
        · exact fun _ _ kept => .charge kept

end Controller

end StackedCache
