import StackedCache.Proofs.Relocation.Idle
import StackedCache.Proofs.Service.Calm
import StackedCache.Proofs.Service.Confinement

/-!
# What requests to segments transfer

A request to a cache of segments transfers the row of its address, and before it, if the access makes
another slot of the segment resident, each row of the segment twice.  `visits` lists these transfers
in order: the layer records them and nothing else, and no bank of the stack changes but those that
have their rows.

Whether the bank of a row is in use is asked for the row of the address only.
-/

namespace StackedCache

/-- DRAM requests to a logical row. -/
structure Visit where
  row : Location
  requests : Nat

/-- The requests of visits to a logical bank. -/
def requestsAt (visits : List Visit) (q : BankPlace) : Nat :=
  ((visits.filter fun v => v.row.place = q).map Visit.requests).sum

theorem requestsAt_cons (v : Visit) (visits : List Visit) (q : BankPlace) :
    requestsAt (v :: visits) q =
      (if v.row.place = q then v.requests else 0) + requestsAt visits q := by
  unfold requestsAt
  by_cases here : v.row.place = q
  · simp [here]
  · simp [here]

theorem requestsAt_append (visits more : List Visit) (q : BankPlace) :
    requestsAt (visits ++ more) q = requestsAt visits q + requestsAt more q := by
  rw [requestsAt, List.filter_append, List.map_append, List.sum_append_nat]
  rfl

/-! ## Records of visits -/

namespace Layer

variable {p q : BankPlace} {visits more : List Visit}

/-- Records visits one after the other. -/
def recordAll (l : Layer) (visits : List Visit) : Layer :=
  visits.foldl (fun l v => l.perform (.recordAccess v.row v.requests)) l

/-- No visited row is on a physical bank. -/
def Apart (l : Layer) (visits : List Visit) (p : BankPlace) : Prop :=
  ∀ v ∈ visits, ∀ physical, l.physicalLocation v.row = .ok physical → physical.place ≠ p

theorem recordAll_append (l : Layer) (visits more : List Visit) :
    l.recordAll (visits ++ more) = (l.recordAll visits).recordAll more := List.foldl_append

theorem steady_recordAll (l : Layer) (visits : List Visit) : l.Steady (l.recordAll visits) := by
  induction visits generalizing l with
  | nil => exact refl l
  | cons v visits ih => exact IsTrans.trans _ _ _ (l.steady_recordAccess v.row v.requests) (ih _)

/-- Requests to a row are counted for its bank, and for no other one. -/
theorem accesses_recordAccess (l : Layer) (row : Location) (n : Nat) (q : BankPlace) :
    (Layer.entry? (l.perform (.recordAccess row n)) q).map Entry.accesses =
      (l.entry? q).map fun e => e.accesses + if row.place = q then n else 0 := by
  cases held : l.geometry.holds row.place with
  | false =>
      have same : l.perform (.recordAccess row n) = l := by
        simp only [perform, Layer.recordAccess, bankId?, held, Bool.false_eq_true, if_false]
        rfl
      rw [same]
      by_cases here : row.place = q
      · have absent : l.entry? q = none := by rw [Layer.entry?, ← here, held]; rfl
        rw [absent]
        rfl
      · simp only [here, if_false, Nat.add_zero]
  | true =>
      have recorded : (l.perform (.recordAccess row n)).bank? (l.geometry.bankId q) =
          if l.geometry.bankId row.place = l.geometry.bankId q then
            (l.bank? (l.geometry.bankId q)).map (·.recordAccess row.row n)
          else l.bank? (l.geometry.bankId q) := by
        simp only [perform, Layer.recordAccess, bankId?_of_holds held]
        exact bank?_modifyBank ..
      have geometry : (l.perform (.recordAccess row n)).geometry = l.geometry := by
        simp only [perform, Layer.recordAccess, bankId?_of_holds held]
        rfl
      unfold entry?
      rw [geometry, recorded]
      cases inside : l.geometry.holds q with
      | false => rfl
      | true =>
          -- Different banks of the stack have different numbers.
          have number : l.geometry.bankId row.place = l.geometry.bankId q ↔ row.place = q := by
            refine ⟨fun same => ?_, congrArg _⟩
            rw [← bankAt_bankId held, same, bankAt_bankId inside]
          by_cases here : row.place = q
          · simp only [if_true, here, Option.map_map]
            rfl
          · simp only [if_true, mt number.1 here, here, if_false, Nat.add_zero]

theorem accesses_recordAll (l : Layer) (visits : List Visit) (q : BankPlace) :
    (Layer.entry? (l.recordAll visits) q).map Entry.accesses =
      (l.entry? q).map fun e => e.accesses + requestsAt visits q := by
  induction visits generalizing l with
  | nil => rfl
  | cons v visits ih =>
      -- What the first visit adds to an entry is there when the others are recorded.
      have first := l.accesses_recordAccess v.row v.requests q
      have both : ∀ {before after : Option Entry} {n : Nat},
          after.map Entry.accesses = before.map (fun e => e.accesses + n) →
            after.map (fun e => e.accesses + requestsAt visits q) =
              before.map fun e => e.accesses + (n + requestsAt visits q) := by
        rintro (_ | before) (_ | after) n same
        · rfl
        · cases same
        · cases same
        · have sum : after.accesses = before.accesses + n := Option.some.inj same
          simp only [Option.map_some, sum, Nat.add_assoc]
      rw [requestsAt_cons]
      exact (ih _).trans (both first)

end Layer

/-! ## Steps that transfer -/

namespace Controller

variable {c c' c'' : Controller} {p : BankPlace} {visits more : List Visit}

/-- Rows have been visited: the layer has recorded the visits, and no bank has changed but those that
have a visited row. -/
structure Visited (visits : List Visit) (c c' : Controller) : Prop where
  shape : c.stack.SameShape c'.stack
  layer : c'.layer = c.layer.recordAll visits
  stack : ∀ p, c.layer.Apart visits p → c'.stack.bank? p = c.stack.bank? p

/-- No bank has changed but those that have a row to visit. -/
def Strayed (visits : List Visit) (c c' : Controller) : Prop :=
  ∀ p, c.layer.Apart visits p → c'.stack.bank? p = c.stack.bank? p

theorem Visited.nil (c : Controller) : c.Visited [] c := ⟨refl _, rfl, fun _ _ => rfl⟩

/-- Visits leave all rows where they are. -/
theorem Visited.apart (h : c.Visited visits c') (apart : c.layer.Apart more p) :
    c'.layer.Apart more p := by
  intro v member physical located
  rw [h.layer, (c.layer.steady_recordAll visits).physicalLocation] at located
  exact apart v member physical located

theorem Strayed.after (h : c.Visited visits c') (later : c'.Strayed more c'') :
    c.Strayed (visits ++ more) c'' := by
  intro p apart
  have first := h.stack p fun v member => apart v (List.mem_append_left _ member)
  have rest := later p (h.apart fun v member => apart v (List.mem_append_right _ member))
  exact rest.trans first

theorem Visited.trans (h : c.Visited visits c') (later : c'.Visited more c'') :
    c.Visited (visits ++ more) c'' := by
  refine ⟨IsTrans.trans _ _ _ h.shape later.shape, ?_, Strayed.after h later.stack⟩
  rw [later.layer, h.layer, Layer.recordAll_append]

end Controller

namespace Service

open Controller (Visited Strayed)

variable {α β : Type} {c : Controller} {m : Serving α} {f : α → Serving β}
  {visits more : List Visit}

/-- The step makes visits, or fails at one of them. -/
def Visits (visits : List Visit) (m : Serving α) (c : Controller) : Prop :=
  Does m c (fun _ c' => c.Visited visits c') fun _ c' => c.Strayed visits c'

namespace Visits

theorem pure (a : α) : Visits [] (Pure.pure a : Serving α) c := Does.pure (a := a) (.nil c)

theorem bind (first : Visits visits m c) (rest : ∀ a c', c.Visited visits c' → Visits more (f a) c') :
    Visits (visits ++ more) (m >>= f) c := by
  refine Does.bind (first.mono (fun _ _ done => done) ?_) fun a c₁ done => ?_
  · exact fun _ c' failed p apart => failed p fun v member => apart v (List.mem_append_left _ member)
  · exact (rest a c₁ done).mono (fun _ _ later => done.trans later) fun _ _ later => .after done later

theorem theController_bind {f : Controller → Serving β} (h : Visits visits (f c) c) :
    Visits visits (theController >>= f) c := h

theorem count_bind {g : CacheCounts → CacheCounts} {f : Unit → Serving β}
    (h : Visits visits (f ()) (c.modifyCounts g)) : Visits visits (count g >>= f) c :=
  Does.count_bind (h.mono (fun _ _ done => ⟨done.shape, done.layer, done.stack⟩) fun _ _ lost => lost)

theorem stream_bind {bytes : Nat} {f : Unit → Serving β} (h : Visits visits (f ()) c) :
    Visits visits (stream bytes >>= f) c := Does.stream_bind h

theorem stream (bytes : Nat) : Visits [] (stream bytes) c := fun _ => .nil c

theorem ite {p : Prop} [Decidable p] {m' : Serving α} (yes : p → Visits visits m c)
    (no : ¬p → Visits visits m' c) : Visits visits (if p then m else m') c := Does.ite yes no

end Visits

/-- What a step of the stack does to the stack is all it does. -/
theorem onStack_does {step : StackStep α} {R : Stack → Stack → Prop} {Q : α → Prop}
    (leads : Leads R step c.stack) (yields : Yields step c.stack fun a _ => Q a) :
    Does (onStack step) c
      (fun a c' => Q a ∧ ∃ stack, R c.stack stack ∧ c' = { c with stack := stack })
      fun _ c' => ∃ stack, R c.stack stack ∧ c' = { c with stack := stack } := by
  intro elapsed
  unfold Leads at leads
  simp only [onStack]
  cases run : step c.stack with
  | ok a stack =>
      rw [run] at leads
      exact ⟨yields a stack run, stack, leads, rfl⟩
  | error cause stack =>
      rw [run] at leads
      exact ⟨stack, leads, rfl⟩

/-- A transfer visits its row. -/
theorem transfer_visits (arrival : Time) (access : Access) (bytes : Nat) (row : Location) :
    Visits [⟨row, c.stack.requestsFor bytes⟩] (transfer arrival access bytes row) c := by
  refine Does.get_bind fun elapsed => ?_
  cases located : c.layer.physicalLocation row with
  | error cause => exact Does.refused_bind fun _ _ => rfl
  | ok physical =>
      refine Does.attempt_bind ?_
      -- A bank on which the row is not is another one than that of the transfer.
      have elsewhere : ∀ p, c.layer.Apart [⟨row, c.stack.requestsFor bytes⟩] p →
          p ≠ physical.place := fun p apart here =>
        apart _ (List.mem_singleton_self _) physical located here.symm
      have step := onStack_does (c := c)
        (R := fun s s' => s.SameBut physical.place s' ∧ s.SameShape s')
        ⟨Stack.transfer_sameBut access bytes physical (arrival + elapsed),
          Stack.transfer_sameShape access bytes physical (arrival + elapsed)⟩
        (Stack.transfer_requests access bytes physical (arrival + elapsed))
      refine Does.bind (step.mono (fun _ _ done => done) ?_) ?_
      · rintro _ _ ⟨stack, ⟨same, _⟩, rfl⟩ p apart
        exact same p (elsewhere p apart)
      · rintro done _ ⟨requests, stack, ⟨same, shape⟩, rfl⟩
        refine Does.theController_bind ?_
        cases recorded : c.layer.recordAccess row done.requests with
        | error cause => exact Does.refused_bind fun p apart => same p (elsewhere p apart)
        | ok layer =>
            refine Does.attempt_bind (Does.modifyController_bind (Does.charge ?_))
            refine ⟨shape, ?_, fun p apart => same p (elsewhere p apart)⟩
            rw [← Layer.perform_of_recorded recorded, requests]
            rfl

end Service

/-! ## Segments -/

namespace Controller

/-- The number of the segment that holds an address, and that of the slot the address is in. -/
def slotOf (c : Controller) (segments : Array Segment) (addr : Nat) : Nat × Nat :=
  let number := addr / 2 ^ fieldBits c.segmentSize
  let entries := max segments.size 1
  (number % entries, number / entries % c.slots)

/-- What an access to a slot finds. -/
def finds (segments : Array Segment) (index slot : Nat) : SegmentAccess :=
  match segments[index]? with
  | some segment => (segment.access slot).1
  | none => ⟨false, false⟩

/-- Some rows of a segment, from one of them on. -/
def rowsFrom (c : Controller) (base rowSize n row : Nat) : List Location :=
  (List.range' row n).map fun k => c.stack.locate (base + k * rowSize)

/-- The rows that are copied when an address is accessed: those of its segment, if another slot
becomes resident. -/
def copied (c : Controller) (addr : Nat) : List Location :=
  match c.organisation with
  | .segments segments =>
      let (index, slot) := c.slotOf segments addr
      if (finds segments index slot).swapped then
        c.rowsFrom (index * c.segmentSize) c.stack.rowSize (max (c.segmentSize / c.stack.rowSize) 1) 0
      else []
  | _ => []

/-- To copy a row is to read and to write it. -/
def copyVisits (c : Controller) (rowSize : Nat) (rows : List Location) : List Visit :=
  rows.flatMap fun row => [⟨row, c.stack.requestsFor rowSize⟩, ⟨row, c.stack.requestsFor rowSize⟩]

/-- The bank of an address is out of use. -/
def avoids (c : Controller) (addr : Nat) : Bool := c.layer.disabled (c.stack.locate addr).place

/-- The visits of a request to a cache of segments. -/
def visits (c : Controller) (size addr : Nat) : List Visit :=
  if c.avoids addr then []
  else
    c.copyVisits c.stack.rowSize (c.copied addr) ++
      [⟨c.stack.locate addr, c.stack.requestsFor size⟩]

end Controller

namespace Service

open Controller (Visited Strayed)

variable {c : Controller} {segments : Array Segment}

theorem locate_of_shape {stack stack' : Stack} (h : stack.SameShape stack') (addr : Nat) :
    stack'.locate addr = stack.locate addr := by
  rw [Stack.locate, Stack.locate, h.geometry, h.requestBytes]

theorem requestsFor_of_shape {stack stack' : Stack} (h : stack.SameShape stack') (bytes : Nat) :
    stack'.requestsFor bytes = stack.requestsFor bytes := by
  rw [Stack.requestsFor, Stack.requestsFor, h.requestBytes]

/-- Each row is visited twice. -/
theorem copyRows_visits (arrival : Time) (base rowSize n row : Nat) :
    Visits (c.copyVisits rowSize (c.rowsFrom base rowSize n row))
      (copyRows arrival base rowSize n row) c := by
  induction n generalizing c row with
  | zero => exact .pure _
  | succ n ih =>
      let place := c.stack.locate (base + row * rowSize)
      -- The rows to come are where they were, since the stack keeps its shape.
      have rest : ∀ c', c.stack.SameShape c'.stack →
          Visits (c.copyVisits rowSize (c.rowsFrom base rowSize n (row + 1)))
            (copyRows arrival base rowSize n (row + 1)) c' := by
        intro c' shape
        have there := ih (c := c') (row + 1)
        simp only [Controller.copyVisits, Controller.rowsFrom, locate_of_shape shape,
          requestsFor_of_shape shape] at there ⊢
        exact there
      have second : ∀ c', c.stack.SameShape c'.stack →
          Visits [⟨place, c.stack.requestsFor rowSize⟩] (transfer arrival .write rowSize place) c' := by
        intro c' shape
        have there := transfer_visits (c := c') arrival .write rowSize place
        rwa [requestsFor_of_shape shape] at there
      let visit : Visit := ⟨place, c.stack.requestsFor rowSize⟩
      show Visits ([visit] ++ ([visit] ++
        c.copyVisits rowSize (c.rowsFrom base rowSize n (row + 1)))) _ c
      refine Visits.theController_bind ?_
      refine Visits.bind (transfer_visits arrival .read rowSize place) fun _ c₁ read => ?_
      refine Visits.bind (second c₁ read.shape) fun _ c₂ written => ?_
      exact rest c₂ (IsTrans.trans _ _ _ read.shape written.shape)

/-- An access changes its segment only. -/
theorem accessSegment_does {E : Fault → Controller → Prop}
    (organised : c.organisation = .segments segments) (index slot : Nat) :
    Does (accessSegment index slot) c
      (fun found c' => found = Controller.finds segments index slot ∧
        ∃ o, c' = { c with organisation := o }) E := by
  refine .theController_bind ?_
  rw [organised]
  unfold Controller.finds
  dsimp only
  cases segments[index]? with
  | none => exact .pure ⟨rfl, c.organisation, rfl⟩
  | some segment => exact .modifyController_bind (.pure ⟨rfl, _, rfl⟩)

theorem swapSegment_visits (arrival : Time) (index : Nat) :
    Visits (c.copyVisits c.stack.rowSize (c.rowsFrom (index * c.segmentSize) c.stack.rowSize
        (max (c.segmentSize / c.stack.rowSize) 1) 0))
      (swapSegment arrival index) c := by
  refine Visits.theController_bind (Visits.count_bind ?_)
  have copied := Visits.bind
    (copyRows_visits (c := c.modifyCounts fun n => { n with segmentSwaps := n.segmentSwaps + 1 })
      arrival (index * c.segmentSize) c.stack.rowSize (max (c.segmentSize / c.stack.rowSize) 1) 0)
    fun _ _ _ => Visits.stream c.segmentSize
  rwa [List.append_nil] at copied

theorem serveSegment_visits (organised : c.organisation = .segments segments) (arrival : Time)
    (size addr : Nat) (access : Access) :
    Visits (c.copyVisits c.stack.rowSize (c.copied addr) ++
        [⟨c.stack.locate addr, c.stack.requestsFor size⟩])
      (serveSegment arrival size addr access) c := by
  refine Visits.theController_bind ?_
  rw [organised]
  let visit : Visit := ⟨c.stack.locate addr, c.stack.requestsFor size⟩
  -- Whatever comes before it, the transfer goes to the row of the address.
  have data : ∀ c', c.stack.SameShape c'.stack → Visits [visit] (do
      transfer arrival access size ((← theController).stack.locate addr)) c' := by
    intro c' shape
    refine Visits.theController_bind ?_
    have there := transfer_visits (c := c') arrival access size (c.stack.locate addr)
    rw [requestsFor_of_shape shape] at there
    rw [locate_of_shape shape]
    exact there
  have ends : ∀ (found : SegmentAccess) c', c.stack.SameShape c'.stack → Visits [visit] (do
      if found.hit then
        count fun n => { n with segmentHits := n.segmentHits + 1 }
      else
        count fun n => { n with misses := n.misses + 1 }
        stream size
      transfer arrival access size ((← theController).stack.locate addr)) c' := by
    intro found c' shape
    exact Visits.ite (fun _ => Visits.count_bind (data _ shape)) fun _ =>
      Visits.count_bind (Visits.stream_bind (data _ shape))
  refine Does.bind (accessSegment_does organised _ _) ?_
  rintro _ _ ⟨rfl, o, rfl⟩
  let c₁ : Controller := { c with organisation := o }
  have visits : ∀ {visits : List Visit} {m : Serving Unit}, Visits visits m c₁ →
      Does m c₁ (fun _ c' => c.Visited visits c') fun _ c' => c.Strayed visits c' := fun done =>
    done.mono (fun _ _ done => ⟨done.shape, done.layer, done.stack⟩) fun _ _ lost => lost
  cases swapped : (Controller.finds segments (c.slotOf segments addr).1
      (c.slotOf segments addr).2).swapped with
  | false =>
      have copied : c.copied addr = [] := by
        simp only [Controller.copied, organised, swapped, Bool.false_eq_true, if_false]
      rw [copied]
      refine visits (Visits.ite (fun yes => ?_) fun _ => ?_)
      · exact absurd (swapped.symm.trans yes) Bool.false_ne_true
      · exact ends _ c₁ (refl _)
  | true =>
      have copied : c.copied addr = c.rowsFrom ((c.slotOf segments addr).1 * c.segmentSize)
          c.stack.rowSize (max (c.segmentSize / c.stack.rowSize) 1) 0 := by
        simp only [Controller.copied, organised, swapped, if_true]
      rw [copied]
      refine visits (Visits.ite (fun _ => ?_) fun no => absurd swapped no)
      refine Visits.bind (swapSegment_visits arrival _) fun _ c₂ done => ?_
      exact ends _ c₂ done.shape

/-- Only the row of the address is asked whether its bank is in use. -/
theorem serveByDesign_visits (organised : c.organisation = .segments segments) (arrival : Time)
    (size addr : Nat) (access : Access) :
    Visits (c.visits size addr) (serveByDesign arrival size addr access) c := by
  refine Visits.theController_bind ?_
  rw [organised]
  have asked : Does (bypass (c.stack.locate addr) size) c
      (fun past c' => past = c.avoids addr ∧ (past = true → c.Visited [] c') ∧
        (past = false → c' = c)) fun _ c' => c.Strayed (c.visits size addr) c' := by
    refine .theController_bind (.ite (fun off => ?_) fun used => ?_)
    · have counted : c.Visited [] (c.modifyCounts fun n =>
          { n with bypasses := n.bypasses + 1, misses := n.misses + 1 }) :=
        ⟨refl _, rfl, fun _ _ => rfl⟩
      exact .count_bind (.load_bind (.pure ⟨off.symm, fun _ => counted, nofun⟩))
    · exact .pure ⟨(Bool.eq_false_iff.2 used).symm, nofun, fun _ => rfl⟩
  refine Does.bind asked ?_
  rintro past c' ⟨rfl, gone, stays⟩
  unfold Controller.visits
  cases off : c.avoids addr with
  | true => exact Does.pure (gone off)
  | false =>
      obtain rfl := stays off
      exact serveSegment_visits organised arrival size addr access

/-- The page of an address gets its frame, and nothing else changes. -/
theorem renumber_pages {E : Fault → Controller → Prop} (addr : Nat) :
    Does (renumber addr) c
      (fun a c' => a = c.address addr ∧ ∃ t, c' = { c with pageTable := t }) E := by
  refine .theController_bind ?_
  unfold Controller.address
  cases c.pageTable with
  | none => exact .pure ⟨rfl, c.pageTable, rfl⟩
  | some table => exact .modifyController_bind (.pure ⟨rfl, _, rfl⟩)

theorem serveSettled_visits (organised : c.organisation = .segments segments) (arrival : Time)
    (size addr : Nat) (access : Access) :
    Visits (c.visits size (c.address addr)) (serveSettled arrival size addr access) c := by
  refine Does.theController_bind (Does.charge_bind (Does.bind (renumber_pages addr) ?_))
  rintro _ _ ⟨rfl, t, rfl⟩
  let c₁ : Controller := { c with pageTable := t }
  have served := serveByDesign_visits (c := c₁) organised arrival size (c.address addr) access
  refine Does.bind (served.mono (fun _ _ done => ⟨done.shape, done.layer, done.stack⟩)
    fun _ _ lost => lost) fun _ c₂ (done : c.Visited _ c₂) => ?_
  exact Does.theController_bind (Does.charge_bind (Does.charge done))

end Service

/-! ## Requests -/

namespace Controller

variable {c : Controller} {s : Settings}

theorem settled_visits (c : Controller) (size addr : Nat) :
    c.settled.visits size addr = c.visits size addr := by
  unfold settled drawConsequences
  cases c.layer.pending with
  | false => rfl
  | true =>
      have off : c.layer.settle.disabled = c.layer.disabled := funext c.layer.disabled_settle
      simp only [if_true, visits, avoids, off]
      rfl

/-- What comes of a request that makes visits: the layer records them, unless the request fails, and
no bank changes but those that have a visited row. -/
structure Makes (c : Controller) (visits : List Visit) (r : Outcome × Controller) : Prop where
  layer : r.1.fault = none → r.2.layer = c.settled.layer.recordAll visits
  stack : ∀ p, c.layer.Apart visits p → r.2.stack.bank? p = c.stack.bank? p

/-- A request to a cache of segments. -/
theorem Sound.request_makes (h : c.Sound s) (design : s.cache.design = .constant) (time : Time)
    (size addr : Nat) (access : Access) :
    c.Makes (c.visits size (c.address addr)) (c.request time size addr access) := by
  let d := (c.arrived time access).settled
  rcases c.arrived_eq time access with ⟨counts, lastTime, arrived, _⟩
  have layer : d.layer = c.settled.layer := by
    rw [settled_layer, settled_layer, arrived]
  have visits : d.visits size (d.address addr) = c.visits size (c.address addr) := by
    rw [settled_address, settled_visits, arrived]
    rfl
  have stack : d.stack = c.stack := by
    rw [settled_stack, arrived]
  have apart : ∀ p, c.layer.Apart (c.visits size (c.address addr)) p →
      d.layer.Apart (d.visits size (d.address addr)) p := by
    intro p apart v member physical located
    rw [visits] at member
    refine apart v member physical ?_
    rw [← located, layer]
    unfold Layer.physicalLocation Layer.bankId? Layer.geometry
    rw [settled_mapping]
  have organised : ∃ segments, d.organisation = .segments segments := by
    have design : c.organisation.design = .constant := h.design.trans design
    have same : d.organisation = c.organisation := by rw [settled_organisation, arrived]
    rw [same]
    cases organised : c.organisation with
    | segments segments => exact ⟨segments, rfl⟩
    | blocks => rw [organised] at design; cases design
    | pages history => rw [organised] at design; cases design
  rcases organised with ⟨segments, organised⟩
  have done := Service.serveSettled_visits organised (c.order time).1 size addr access
    (c.arrived time access).drawConsequences.1
  rw [request_proceeds h.coherent]
  unfold proceed
  generalize Service.serveSettled (c.order time).1 size addr access
    ⟨d, (c.arrived time access).drawConsequences.1⟩ = r at done ⊢
  cases r with
  | ok u served =>
      refine ⟨fun _ => ?_, fun p clear => ?_⟩
      · rw [← layer, ← visits]
        exact done.layer
      · rw [← stack]
        exact done.stack p (apart p clear)
  | error fault failed =>
      refine ⟨nofun, fun p clear => ?_⟩
      rw [← stack]
      exact done p (apart p clear)

end Controller

end StackedCache
